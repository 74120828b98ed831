/-!
# Builtin types

The twelve types that every definition may name without declaring them. Ten are
integer types, each with an inclusive range; the unsized ones are 64 bits wide.
Parameters may have any builtin type but `bool`.
-/

namespace DuplexRpc

/-- A type that needs no declaration. -/
inductive Builtin
  | int | int8 | int16 | int32 | int64
  | uint | uint8 | uint16 | uint32 | uint64
  | string | bool
  deriving DecidableEq, Repr

namespace Builtin

def all : List Builtin :=
  [.int, .int8, .int16, .int32, .int64, .uint, .uint8, .uint16, .uint32, .uint64, .string, .bool]

/-- The word that names the type in a definition. -/
def name : Builtin → String
  | int => "int"
  | int8 => "int8"
  | int16 => "int16"
  | int32 => "int32"
  | int64 => "int64"
  | uint => "uint"
  | uint8 => "uint8"
  | uint16 => "uint16"
  | uint32 => "uint32"
  | uint64 => "uint64"
  | string => "string"
  | bool => "bool"

def ofName? (word : String) : Option Builtin := all.find? (·.name = word)

theorem ofName?_eq_some_iff {word : String} {b : Builtin} :
    ofName? word = some b ↔ b.name = word := by
  constructor
  · intro h
    simpa using List.find?_some h
  · rintro rfl
    cases b <;> rfl

@[simp] theorem ofName?_name (b : Builtin) : ofName? b.name = some b :=
  ofName?_eq_some_iff.mpr rfl

def isParamType (b : Builtin) : Bool := b != bool

/-- The least and the greatest value of an integer type. -/
def range? : Builtin → Option (Int × Int)
  | int | int64 => some (-(1 <<< 63), 1 <<< 63 - 1)
  | int8 => some (-(1 <<< 7), 1 <<< 7 - 1)
  | int16 => some (-(1 <<< 15), 1 <<< 15 - 1)
  | int32 => some (-(1 <<< 31), 1 <<< 31 - 1)
  | uint | uint64 => some (0, 1 <<< 64 - 1)
  | uint8 => some (0, 1 <<< 8 - 1)
  | uint16 => some (0, 1 <<< 16 - 1)
  | uint32 => some (0, 1 <<< 32 - 1)
  | string | bool => none

end Builtin

end DuplexRpc
