/-!
# Parse errors

A definition is refused for its first fault. The fault names its cause; kind and
detail of the report follow from the cause, and so does its text.
-/

namespace DuplexRpc

/-- The kinds of fault, each with a fixed wording. -/
inductive FaultKind
  | invalidNameDefinition
  | invalidProcedureDefinition
  | invalidTypeDefinition
  | invalidParameter
  | duplicateProcedureIdentifier
  | duplicateParameterIdentifier
  | unexpectedReturnParameters
  | emptyReturnGroup
  | unknownStatement
  | unexpectedEof
  | reader
  deriving DecidableEq, Repr

def FaultKind.text : FaultKind → String
  | .invalidNameDefinition => "invalid name definition"
  | .invalidProcedureDefinition => "invalid procedure definition"
  | .invalidTypeDefinition => "invalid type definition"
  | .invalidParameter => "invalid parameter definition (argument or return value)"
  | .duplicateProcedureIdentifier => "duplicate procedure identifier"
  | .duplicateParameterIdentifier => "duplicate parameter identifier (argument or return value)"
  | .unexpectedReturnParameters => "unexpected return parameters (oneway procedure?)"
  | .emptyReturnGroup => "empty return group"
  | .unknownStatement => "unknown statement"
  | .unexpectedEof => "unexpected end of input"
  | .reader => "reader error"

/-- The place in a type expression where a name stands. -/
inductive TypeRole
  | target | element | mapKey | mapValue
  deriving DecidableEq, Repr

def TypeRole.text : TypeRole → String
  | .target => "type"
  | .element => "element type"
  | .mapKey => "map key type"
  | .mapValue => "map value type"

/-- Why a line, or the lack of one, is refused. -/
inductive Fault
  | noName
  | noLine
  | unreadable (reason : String)
  | unknownStatement (line : String)
  | malformedProcedure (line : String)
  | returnsOfOneway (procedure : String)
  | emptyReturns (procedure : String)
  | duplicateProcedure (procedure : String)
  | malformedParam (position : Nat) (text : String)
  | unknownParamType (position : Nat) (type : String)
  | duplicateParam (position : Nat) (name : String)
  | malformedType (line : String)
  | builtinRedeclared (type : String)
  | duplicateType (type : String)
  | unknownType (role : TypeRole) (type : String)
  | structType
  deriving DecidableEq, Repr

namespace Fault

def kind : Fault → FaultKind
  | noName => .invalidNameDefinition
  | noLine => .unexpectedEof
  | unreadable _ => .reader
  | unknownStatement _ => .unknownStatement
  | malformedProcedure _ => .invalidProcedureDefinition
  | returnsOfOneway _ => .unexpectedReturnParameters
  | emptyReturns _ => .emptyReturnGroup
  | duplicateProcedure _ => .duplicateProcedureIdentifier
  | malformedParam .. | unknownParamType .. => .invalidParameter
  | duplicateParam .. => .duplicateParameterIdentifier
  | malformedType _ | builtinRedeclared _ | duplicateType _ | unknownType .. | structType =>
    .invalidTypeDefinition

/-- What a report adds to the wording of the kind. -/
def detail? : Fault → Option String
  | noName | noLine => none
  | unreadable reason => some reason
  | unknownStatement text | malformedProcedure text | returnsOfOneway text | emptyReturns text
  | duplicateProcedure text | malformedType text => some ("\"" ++ text ++ "\"")
  | malformedParam position text | duplicateParam position text =>
    some ("at position " ++ toString position ++ ": \"" ++ text ++ "\"")
  | unknownParamType position type =>
    some ("at position " ++ toString position ++ ": unknown type \"" ++ type ++ "\"")
  | builtinRedeclared type => some ("cannot redeclare builtin type `" ++ type ++ "`")
  | duplicateType type => some ("duplicate type `" ++ type ++ "`")
  | unknownType role type => some ("unknown " ++ role.text ++ " `" ++ type ++ "`")
  | structType => some "struct types are not supported"

end Fault

/-- The first fault of a definition and the line it is on, counted from 1. -/
structure ParseError where
  line : Nat
  fault : Fault
  deriving DecidableEq, Repr

namespace ParseError

/-- The error for a definition that is to be read from a file that does not exist; no line has
been reached, so the line is 0. -/
def missingFile (path : String) : ParseError :=
  ⟨0, .unreadable (path ++ ": No such file or directory (os error 2)")⟩

def message (e : ParseError) : String :=
  "parse error on line " ++ toString e.line ++ ": " ++ e.fault.kind.text ++
    (match e.fault.detail? with
      | some detail => ": " ++ detail
      | none => "")

end ParseError

end DuplexRpc
