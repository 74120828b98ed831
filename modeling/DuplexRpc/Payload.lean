import DuplexRpc.Definition.Service
import DuplexRpc.Values

/-!
# Payloads

The data of a request or a response is checked against declared parameters before
anyone sees it. What comes out has exactly the declared names: a missing value becomes
the zero value of its type, an undeclared one is dropped, and one that does not fit is
an error.
-/

namespace DuplexRpc

/-- Why a payload does not fit the declared parameters. -/
inductive PayloadError
  | notAnObject (found : Json.Kind)
  | typeMismatch (path : String) (expected : String) (found : Json.Kind)
  deriving DecidableEq, Repr

def PayloadError.message : PayloadError → String
  | notAnObject found => "expected an object of named values, found " ++ found.word
  | typeMismatch path expected found =>
    "`" ++ path ++ "`: expected " ++ expected ++ ", found " ++ found.word

namespace Builtin

/-- Whether a value is of a builtin type. Integers must be spelled as such and lie in the range of
the type. -/
def accepts : Builtin → Json → Bool
  | string, .string _ => true
  | bool, .bool _ => true
  | type, .number (.integer value _) =>
    match type.range? with
    | some (least, greatest) => least ≤ value && value ≤ greatest
    | none => false
  | _, _ => false

/-- The value of a type that stands in for a missing one. -/
def zero : Builtin → Json
  | string => .string ""
  | bool => .bool false
  | _ => .ofInt 0

end Builtin

namespace DataType

/-- Whether a value is of a type. Values of declared types are not passed. -/
def accepts : DataType → Json → Bool
  | builtin type, value => type.accepts value
  | _, _ => false

def zero : DataType → Json
  | builtin type => type.zero
  | _ => .null

end DataType

/-- The members of a payload. No payload and null have none. -/
def payloadFields : Option Json → Except PayloadError (Table Json)
  | none | some .null => .ok .empty
  | some (.object members) => .ok (.ofList members)
  | some other => .error (.notAnObject other.kind)

/-- Add the values of parameters to those of earlier ones. A member is used up by the first
parameter of its name. -/
def conformFields (fields : Table Json) (done : Values) :
    List Param → Except PayloadError Values
  | [] => .ok done
  | p :: rest =>
    match fields.find? p.name with
    | some value =>
      if p.type.accepts value then
        conformFields (fields.erase p.name) (done.insert p.name value) rest
      else .error (.typeMismatch p.name p.type.name value.kind)
    | none => conformFields fields (done.insert p.name p.type.zero) rest

/-- The values of declared parameters in a payload. -/
def conform (params : List Param) (payload : Option Json) : Except PayloadError Values :=
  match payloadFields payload with
  | .ok fields => conformFields fields .empty params
  | .error e => .error e

end DuplexRpc
