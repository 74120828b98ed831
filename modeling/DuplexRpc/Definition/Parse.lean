import DuplexRpc.Definition.ParseError
import DuplexRpc.Definition.Source
import DuplexRpc.Definition.Statement
import DuplexRpc.Text.Blank

/-!
# Parsing definitions

A definition is judged line by line, and its first fault decides. The first line
names the service. Every other line is blank or adds one procedure or one type to
what the lines before it have defined; it never changes an earlier entry.

The kind of a line is told by its first word alone. White space at the end of a line
carries no meaning.
-/

namespace DuplexRpc

inductive LineKind
  | blank | procedure | type | unknown
  deriving DecidableEq, Repr

/-- The kind of a line, told by the word before its first separator. -/
def LineKind.of (line : List Char) : LineKind :=
  if line.all Text.isBlank then .blank
  else
    let word := String.ofList (line.takeWhile (!Statement.isGap ·))
    if word = Side.server.word ∨ word = Side.client.word then .procedure
    else if word = "type" then .type
    else .unknown

/-- The pieces of a text between its commas; there is always one more than there are commas. -/
def splitCommas : List Char → List (List Char)
  | [] => [[]]
  | c :: rest =>
    if c = ',' then [] :: splitCommas rest
    else
      match splitCommas rest with
      | [] => [[c]]
      | piece :: more => (c :: piece) :: more

namespace Param

/-- Judge one parameter at its position, after the ones before it in the list. -/
def judge (position : Nat) (earlier : List Param) (text : List Char) : Except Fault Param :=
  match Statement.param? text with
  | none => .error (.malformedParam position (String.ofList (Text.trim text)))
  | some (name, type) =>
    match (Builtin.ofName? type).filter Builtin.isParamType with
    | none => .error (.unknownParamType position type)
    | some builtin =>
      if earlier.any (·.name == name) then .error (.duplicateParam position name)
      else .ok ⟨name, .builtin builtin⟩

/-- Judge the parameters of a list from front to back, the first one being at `position`. -/
def judgeAll (position : Nat) (earlier : List Param) : List (List Char) → Except Fault (List Param)
  | [] => .ok earlier
  | text :: more => do
    let param ← judge position earlier text
    judgeAll (position + 1) (earlier ++ [param]) more

/-- The parameters of a group, given what stands between its parentheses. -/
def ofGroup (group : List Char) : Except Fault (List Param) :=
  if group.isEmpty then .ok [] else judgeAll 1 [] (splitCommas group)

end Param

namespace Procedure

/-- The procedure that a line declares, apart from whether its name is free. -/
def ofLine (line : List Char) (number : Nat) : Except Fault Procedure :=
  match Statement.header? (Text.trimEnd line) with
  | none => .error (.malformedProcedure (String.ofList (Text.trim line)))
  | some ⟨side, oneway, name, args, rets?⟩ => do
    if oneway && rets?.isSome then throw (.returnsOfOneway name)
    let args ← Param.ofGroup args
    let rets ← Param.ofGroup (rets?.getD [])
    if rets?.isSome && rets.isEmpty then throw (.emptyReturns name)
    return { name, side, oneway, args, rets, line := number }

end Procedure

namespace DataType

/-- The type that a type expression spells under a name, over the types of a service. -/
def ofExpr (service : Service) (name : String) : Statement.TypeExpr → Except Fault DataType
  | .simple target => do
    return .simple name (← resolved .target target)
  | .slice element => do
    return .slice name (← resolved .element element)
  | .map key value => do
    let key ← resolved .mapKey key
    return .map name key (← resolved .mapValue value)
  | .struct => .error .structType
where
  /-- The type that a name at some place of the expression means. -/
  resolved (role : TypeRole) (name : String) : Except Fault DataType :=
    match service.lookupType name with
    | some type => .ok type
    | none => .error (.unknownType role name)

def ofLine (service : Service) (line : List Char) : Except Fault DataType :=
  match Statement.typeLine? (Text.trimEnd line) with
  | none => .error (.malformedType (String.ofList (Text.trim line)))
  | some (name, expr) =>
    if (Builtin.ofName? name).isSome then .error (.builtinRedeclared name)
    else if service.types.contains name then .error (.duplicateType name)
    else ofExpr service name expr

end DataType

namespace Service

/-- Judge a line of the body and add what it declares. -/
def judgeLine (service : Service) (number : Nat) (line : List Char) : Except Fault Service :=
  match LineKind.of line with
  | .blank => .ok service
  | .procedure => do
    let procedure ← Procedure.ofLine line number
    if (service.procedures procedure.side).contains procedure.name then
      throw (.duplicateProcedure procedure.name)
    return service.addProcedure procedure
  | .type => do
    return service.addType (← DataType.ofLine service line)
  | .unknown => .error (.unknownStatement (String.ofList (Text.trim line)))

/-- Judge the items of the body, the first of which is at line `number`. -/
def judgeItems (service : Service) (number : Nat) : List Item → Except ParseError Service
  | [] => .ok service
  | .failure reason :: _ => .error ⟨number, .unreadable reason⟩
  | .line text :: more =>
    match service.judgeLine number text.toList with
    | .ok service => service.judgeItems (number + 1) more
    | .error fault => .error ⟨number, fault⟩

def ofItems : List Item → Except ParseError Service
  | [] => .error ⟨1, .noLine⟩
  | .failure reason :: _ => .error ⟨1, .unreadable reason⟩
  | .line text :: body =>
    match Statement.nameLine? (Text.trimEnd text.toList) with
    | some name => (named name).judgeItems 2 body
    | none => .error ⟨1, .noName⟩

def parse (source : Source) : Except ParseError Service := ofItems source.items

def parseText (text : String) : Except ParseError Service := parse (.ofBytes (Text.utf8 text))

end Service

end DuplexRpc
