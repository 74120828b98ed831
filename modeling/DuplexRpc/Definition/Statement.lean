import DuplexRpc.Definition.Service

/-!
# Statements

The shapes that a line of a definition can have, over its characters. A reader
takes what it recognises off the front and returns the rest; a line has a shape when
nothing is left over.

Words are separated by spaces and tabs alone. An identifier starts with a lower-case
ASCII letter and goes on with ASCII letters and digits. Within a group of parameters
anything but a parenthesis may stand, to be judged later.
-/

namespace DuplexRpc.Statement

/-- Whether a character separates words. -/
def isGap (c : Char) : Bool := c == ' ' || c == '\t'

def skipGap (s : List Char) : List Char := s.dropWhile isGap

/-- Skip separators, of which there must be one. -/
def gap? : List Char → Option (List Char)
  | c :: rest => if isGap c then some (skipGap rest) else none
  | [] => none

def word? (word : String) (s : List Char) : Option (List Char) := word.toList.isPrefixOf? s

/-- Take an identifier off the front, as long as it goes. -/
def identifier? : List Char → Option (String × List Char)
  | c :: rest =>
    if c.isLower then
      some (String.ofList (c :: rest.takeWhile Char.isAlphanum), rest.dropWhile Char.isAlphanum)
    else none
  | [] => none

def isParen (c : Char) : Bool := c == '(' || c == ')'

/-- Take a group off the front and return what stands between its parentheses. -/
def group? : List Char → Option (List Char × List Char)
  | '(' :: rest =>
    match rest.dropWhile (!isParen ·) with
    | ')' :: after => some (rest.takeWhile (!isParen ·), after)
    | _ => none
  | _ => none

structure Signature where
  name : String
  args : List Char
  rets? : Option (List Char)
  deriving DecidableEq

/-- Take a signature off the front; the group of return values may be missing. -/
def signature? (s : List Char) : Option (Signature × List Char) := do
  let (name, s) ← identifier? s
  let (args, s) ← group? (skipGap s)
  match group? (skipGap s) with
  | some (rets, rest) => some (⟨name, args, some rets⟩, rest)
  | none => some (⟨name, args, none⟩, skipGap s)

def side? (s : List Char) : Option (Side × List Char) :=
  ((word? Side.server.word s).map (.server, ·)).or ((word? Side.client.word s).map (.client, ·))

structure Header where
  side : Side
  oneway : Bool
  signature : Signature
  deriving DecidableEq

def onewaySignature? (s : List Char) : Option (Signature × List Char) := do
  signature? (← gap? (← word? "oneway" s))

/-- The header of a procedure line. The word `oneway` that is not followed by a signature is
itself the name of the procedure. -/
def header? (line : List Char) : Option Header := do
  let (side, s) ← side? line
  let s ← gap? s
  match onewaySignature? s with
  | some (signature, rest) => if rest.isEmpty then some ⟨side, true, signature⟩ else none
  | none =>
    let (signature, rest) ← signature? s
    if rest.isEmpty then some ⟨side, false, signature⟩ else none

def param? (text : List Char) : Option (String × String) := do
  let (name, s) ← identifier? (skipGap text)
  let s ← gap? s
  let type := s.takeWhile Char.isAlphanum
  if type.isEmpty || !(skipGap (s.dropWhile Char.isAlphanum)).isEmpty then none
  else some (name, String.ofList type)

inductive TypeExpr
  | simple (target : String)
  | slice (element : String)
  | map (key value : String)
  | struct
  deriving DecidableEq, Repr

def slice? (s : List Char) : Option (TypeExpr × List Char) := do
  let (element, rest) ← identifier? (← word? "[]" s)
  some (.slice element, rest)

def map? (s : List Char) : Option (TypeExpr × List Char) := do
  let (key, s) ← identifier? (← word? "map[" s)
  let (value, rest) ← identifier? (← word? "]" s)
  some (.map key value, rest)

/-- Recognise the beginning of a struct type; its body is not looked at. -/
def struct? (s : List Char) : Option (TypeExpr × List Char) := do
  let _ ← word? "\x7b" (skipGap (← word? "struct" s))
  some (.struct, [])

def typeExpr? (s : List Char) : Option (TypeExpr × List Char) :=
  (slice? s).or <| (map? s).or <| (struct? s).or <|
    (identifier? s).map fun (target, rest) => (.simple target, rest)

def typeLine? (line : List Char) : Option (String × TypeExpr) := do
  let (name, s) ← identifier? (← gap? (← word? "type" line))
  let (expr, rest) ← typeExpr? (← gap? s)
  if rest.isEmpty then some (name, expr) else none

def nameLine? (line : List Char) : Option String := do
  let (name, rest) ← identifier? (← gap? (← word? "name" line))
  if rest.isEmpty then some name else none

end DuplexRpc.Statement
