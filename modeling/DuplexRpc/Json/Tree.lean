import DuplexRpc.Json.Token

/-!
# JSON trees

The structure of a JSON text: which tokens belong to which array or object. Reading
keeps the arrays and objects that are still open on a stack and looks at one token at
a time, so a text may be nested to any depth. Members stay in the order of the text,
repeated names included.
-/

namespace DuplexRpc.Json

/-- A JSON value as it is spelled. -/
inductive Tree
  | null
  | bool (value : Bool)
  | number (value : Numeral)
  | string (value : List StringPart)
  | array (items : List Tree)
  | object (members : List (List StringPart × Tree))

namespace Tree

mutual

def tokens : Tree → List Token
  | null => [.null]
  | bool value => [.bool value]
  | number value => [.number value]
  | string value => [.string value]
  | array items => .beginArray :: itemTokens items
  | object members => .beginObject :: memberTokens members

/-- The tokens of an array behind its opening bracket. -/
def itemTokens : List Tree → List Token
  | [] => [.endArray]
  | item :: rest => item.tokens ++ moreItemTokens rest

/-- The tokens of an array behind one of its items. -/
def moreItemTokens : List Tree → List Token
  | [] => [.endArray]
  | item :: rest => .valueSeparator :: item.tokens ++ moreItemTokens rest

/-- The tokens of an object behind its opening brace. -/
def memberTokens : List (List StringPart × Tree) → List Token
  | [] => [.endObject]
  | (name, value) :: rest =>
    .string name :: .nameSeparator :: value.tokens ++ moreMemberTokens rest

/-- The tokens of an object behind one of its members. -/
def moreMemberTokens : List (List StringPart × Tree) → List Token
  | [] => [.endObject]
  | (name, value) :: rest =>
    .valueSeparator :: .string name :: .nameSeparator :: value.tokens ++ moreMemberTokens rest

end

/-- The place of a value in the array or object around it, with what came before it there, the
latest first. -/
inductive Place
  | item (done : List Tree)
  | member (done : List (List StringPart × Tree)) (name : List StringPart)

inductive Expecting
  | value
  | itemOrEnd
  | nameOrEnd
  | name (done : List (List StringPart × Tree))
  | colon (done : List (List StringPart × Tree)) (name : List StringPart)
  | afterValue (value : Tree)

/-- How far a text has been read: what comes next, and the places of the open values from the
inside out. -/
structure Partial where
  expecting : Expecting
  places : List Place

namespace Partial

def start : Partial := ⟨.value, []⟩

def beginValue (token : Token) (places : List Place) : Option Partial :=
  match token with
  | .null => some ⟨.afterValue .null, places⟩
  | .bool value => some ⟨.afterValue (.bool value), places⟩
  | .number value => some ⟨.afterValue (.number value), places⟩
  | .string value => some ⟨.afterValue (.string value), places⟩
  | .beginArray => some ⟨.itemOrEnd, places⟩
  | .beginObject => some ⟨.nameOrEnd, places⟩
  | _ => none

/-- Read the token behind a value, which goes on with the array or object around it or ends it. -/
def continueAt (value : Tree) : Token → List Place → Option Partial
  | .valueSeparator, .item done :: places => some ⟨.value, .item (value :: done) :: places⟩
  | .endArray, .item done :: places => some ⟨.afterValue (.array (value :: done).reverse), places⟩
  | .valueSeparator, .member done name :: places => some ⟨.name ((name, value) :: done), places⟩
  | .endObject, .member done name :: places =>
    some ⟨.afterValue (.object ((name, value) :: done).reverse), places⟩
  | _, _ => none

def read (p : Partial) (token : Token) : Option Partial :=
  match p.expecting with
  | .value => beginValue token p.places
  | .itemOrEnd =>
    if token = .endArray then some ⟨.afterValue (.array []), p.places⟩
    else beginValue token (.item [] :: p.places)
  | .nameOrEnd =>
    match token with
    | .endObject => some ⟨.afterValue (.object []), p.places⟩
    | .string name => some ⟨.colon [] name, p.places⟩
    | _ => none
  | .name done =>
    match token with
    | .string name => some ⟨.colon done name, p.places⟩
    | _ => none
  | .colon done name =>
    if token = .nameSeparator then some ⟨.value, .member done name :: p.places⟩ else none
  | .afterValue value => continueAt value token p.places

def result? (p : Partial) : Option Tree :=
  match p.expecting, p.places with
  | .afterValue value, [] => some value
  | _, _ => none

end Partial

def ofTokens? (tokens : List Token) : Option Tree :=
  (tokens.foldlM Partial.read .start).bind Partial.result?

def ofText? (s : Bytes) : Option Tree := (Token.ofText? s).bind ofTokens?

def toText (t : Tree) : Bytes := Token.toText t.tokens

end Tree

end DuplexRpc.Json
