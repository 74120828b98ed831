import DuplexRpc.Json.Value

/-!
# Named values

The arguments or return values of one procedure call: JSON values under distinct
names.
-/

namespace DuplexRpc

/-- Values under distinct names. -/
structure Values where
  fields : Table Json
  deriving DecidableEq

namespace Values

def empty : Values := ⟨.empty⟩

instance : Inhabited Values := ⟨empty⟩

def find? (v : Values) (name : String) : Option Json := v.fields.find? name

def insert (v : Values) (name : String) (value : Json) : Values := ⟨v.fields.insert name value⟩

def size (v : Values) : Nat := v.fields.size

def isEmpty (v : Values) : Bool := v.size == 0

def toJson (v : Values) : Json := .ofTable v.fields

/-- The values that an object holds; null holds none, and nothing else holds values by name. -/
def ofJson? : Json → Option Values
  | .object members => some ⟨.ofList members⟩
  | .null => some empty
  | _ => none

/-- Why data that is neither an object nor null cannot be passed as values. -/
def notNamed : String := "named values must serialize to an object"

@[simp] theorem find?_empty (name : String) : empty.find? name = none := rfl

@[simp] theorem find?_insert (v : Values) (name : String) (value : Json) (other : String) :
    (v.insert name value).find? other = if other = name then some value else v.find? other :=
  Table.find?_insert v.fields name value other

end Values

end DuplexRpc
