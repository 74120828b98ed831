import DuplexRpc.Json.Text
import DuplexRpc.Text.Quoted
import DuplexRpc.Values

/-!
# Reading values by shape

A program reads the values it is given at types of its own. A shape describes such a
type; reading at a shape yields a value of the type or says why there is none.
Integers are read at a machine width and must be spelled as integers.
-/

namespace DuplexRpc

inductive IntType
  | i8 | i16 | i32 | i64 | u8 | u16 | u32 | u64
  deriving DecidableEq, Repr

namespace IntType

def name : IntType → String
  | i8 => "i8"
  | i16 => "i16"
  | i32 => "i32"
  | i64 => "i64"
  | u8 => "u8"
  | u16 => "u16"
  | u32 => "u32"
  | u64 => "u64"

def width : IntType → Nat
  | i8 | u8 => 8
  | i16 | u16 => 16
  | i32 | u32 => 32
  | i64 | u64 => 64

def signed : IntType → Bool
  | i8 | i16 | i32 | i64 => true
  | u8 | u16 | u32 | u64 => false

def holds (t : IntType) (n : Int) : Bool :=
  if t.signed then -(1 <<< (t.width - 1)) ≤ n && n < 1 <<< (t.width - 1)
  else 0 ≤ n && n < 1 <<< t.width

end IntType

inductive ReadError
  /-- There is no value of the name. -/
  | missing (name : String)
  /-- There is no value for a field of a record. -/
  | missingField (name : String)
  /-- The value is of another kind than expected. -/
  | mistyped (found : Json) (expected : String)
  /-- The integer does not fit the expected type. -/
  | outOfRange (found : Int) (expected : IntType)
  deriving DecidableEq

namespace ReadError

/-- How a value is spoken of that is not of the expected kind. -/
def describe : Json → String
  | .null => "null"
  | .bool value => "boolean `" ++ toString value ++ "`"
  | .number (.integer value _) => "integer `" ++ toString value ++ "`"
  | .number (.float value) =>
    "floating point `" ++
      ((Text.ofUtf8? (Json.Token.spellNumeral (.ofFloat value))).getD "") ++ "`"
  | .string value => "string " ++ Text.quote value
  | .array _ => "sequence"
  | .object _ => "map"

def message : ReadError → String
  | missing name => "missing value `" ++ name ++ "`"
  | missingField name => "missing field `" ++ name ++ "`"
  | mistyped found expected => "invalid type: " ++ describe found ++ ", expected " ++ expected
  | outOfRange found expected =>
    "invalid value: integer `" ++ toString found ++ "`, expected " ++ expected.name

end ReadError

inductive Shape
  | int (type : IntType)
  | bool
  | string
  | option (content : Shape)
  | list (item : Shape)
  | any
  deriving DecidableEq, Repr

namespace Shape

def Carrier : Shape → Type
  | int _ => Int
  | bool => Bool
  | string => String
  | option content => Option content.Carrier
  | list item => List item.Carrier
  | any => Json

def readInt (type : IntType) : Json → Except ReadError Int
  | .number (.integer value _) =>
    if type.holds value then .ok value else .error (.outOfRange value type)
  | other => .error (.mistyped other type.name)

def read : (shape : Shape) → Json → Except ReadError shape.Carrier
  | int type, value => readInt type value
  | bool, .bool value => .ok value
  | bool, other => .error (.mistyped other "a boolean")
  | string, .string value => .ok value
  | string, other => .error (.mistyped other "a string")
  | option _, .null => .ok none
  | option content, value => (content.read value).map some
  | list item, .array values => values.mapM item.read
  | list _, other => .error (.mistyped other "a sequence")
  | any, value => .ok value

end Shape

namespace Values

def get (v : Values) (name : String) (shape : Shape) : Except ReadError shape.Carrier :=
  match v.find? name with
  | some value => shape.read value
  | none => .error (.missing name)

/-- Check that the values that are fields of a record have the shapes of the fields. -/
def checkShapes (fields : List (String × Shape)) : List (String × Json) → Except ReadError Unit
  | [] => .ok ()
  | (name, value) :: rest =>
    match fields.lookup name with
    | some shape =>
      match shape.read value with
      | .ok _ => checkShapes fields rest
      | .error e => .error e
    | none => checkShapes fields rest

/-- Check that the values make a record: first, in the order of their names, that those of its
fields have the right shapes, then that every field has one. Other values do not matter. -/
def checkRecord (v : Values) (fields : List (String × Shape)) : Except ReadError Unit :=
  match checkShapes fields v.fields.toList with
  | .ok _ =>
    match fields.find? fun field => (v.find? field.1).isNone with
    | some (name, _) => .error (.missingField name)
    | none => .ok ()
  | .error e => .error e

end Values

end DuplexRpc
