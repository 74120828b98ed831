import DuplexRpc.Json.StringText
import DuplexRpc.Json.Tree
import DuplexRpc.Json.Value

/-!
# JSON texts

Between a value and its text stands the tree that the text spells. Reading a tree as
a value bounds how deeply it may be nested, requires every string and number in it to
be representable, and lets the last of several members of one name count.

Writing gives the shortest text with the members of objects in order. Reading it back
yields the value again.
-/

namespace DuplexRpc.Json

/-- How deeply arrays and objects may be nested in a text. -/
def maxDepth : Nat := 127

mutual

/-- The value that a tree spells, with room for `depth` nested arrays and objects. -/
def ofTree? (depth : Nat) : Tree → Option Json
  | .null => some .null
  | .bool value => some (.bool value)
  | .number value => (Number.ofNumeral? value).map .number
  | .string value => (StringText.decode? value).map .string
  | .array items =>
    match depth with
    | 0 => none
    | depth + 1 => (ofItems? depth items).map .array
  | .object members =>
    match depth with
    | 0 => none
    | depth + 1 => (ofMembers? depth members).map fun entries => ofTable (.ofList entries)

def ofItems? (depth : Nat) : List Tree → Option (List Json)
  | [] => some []
  | item :: rest =>
    match ofTree? depth item with
    | some value => (ofItems? depth rest).map (value :: ·)
    | none => none

def ofMembers? (depth : Nat) : List (List StringPart × Tree) → Option (List (String × Json))
  | [] => some []
  | (name, member) :: rest =>
    match StringText.decode? name, ofTree? depth member with
    | some name, some value => (ofMembers? depth rest).map ((name, value) :: ·)
    | _, _ => none

end

mutual

def toTree : Json → Tree
  | null => .null
  | bool value => .bool value
  | number value => .number value.toNumeral
  | string value => .string (StringText.encode value)
  | array items => .array (itemTrees items)
  | object members => .object (memberTrees members)

def itemTrees : List Json → List Tree
  | [] => []
  | item :: rest => toTree item :: itemTrees rest

def memberTrees : List (String × Json) → List (List StringPart × Tree)
  | [] => []
  | (name, value) :: rest => (StringText.encode name, toTree value) :: memberTrees rest

end

def ofText? (s : Bytes) : Option Json := (Tree.ofText? s).bind (ofTree? maxDepth)

def toText (value : Json) : Bytes := (toTree value).toText

end DuplexRpc.Json
