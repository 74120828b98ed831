import DuplexRpc.Definition.Parse
import Mathlib.Data.List.Forall2

/-!
# The grammar of definitions

What a definition is and what it means, said without reading it from front to back.
A text is cut into lines, and every line is spelled by a rule of the grammar. What the
lines declare must be consistent; it then determines the service.

Each rule is quoted at the relation that stands for it. There `x?` means `x` once or not
at all and `x*` means `x` any number of times, `|` separates alternatives, `ws` is one or
more spaces or tabs and `ws?` is any number of them.
-/

namespace DuplexRpc.Grammar

/-! ### Lines -/

/-- The lines of a text. A newline ends a line, and so does a carriage return with the newline
directly behind it. The last line needs no end. -/
def cutLines : List Char → List (List Char)
  | [] => []
  | c :: rest =>
    if c = '\n' then [] :: cutLines rest
    else if c = '\r' ∧ rest.head? = some '\n' then cutLines rest
    else
      match cutLines rest with
      | [] => [[c]]
      | line :: more => (c :: line) :: more

/-- The lines of a text as they are read, without the white space at their ends. -/
def lines (text : String) : List (List Char) := (cutLines text.toList).map Text.trimEnd

/-! ### Words -/

/-- `ws?` -/
def OptWs (s : List Char) : Prop := ∀ c ∈ s, c = ' ' ∨ c = '\t'

/-- `ws` -/
def Ws (s : List Char) : Prop := s ≠ [] ∧ OptWs s

/-- `identifier := a lowercase ASCII letter followed by zero or more ASCII letters or digits` -/
def Identifier (name : String) : Prop :=
  ∃ c rest, name.toList = c :: rest ∧ c.isLower ∧ ∀ d ∈ rest, d.isAlphanum

/-! ### Parameters -/

/-- `param := ws? identifier ws param-type ws?`, where `param-type` is the name of a builtin type
that parameters may have. -/
inductive SpellsParam : List Char → Param → Prop
  | param {lead gap trail : List Char} {name : String} {type : Builtin} (lead_ws : OptWs lead)
      (name_id : Identifier name) (gap_ws : Ws gap) (isParamType : type.isParamType)
      (trail_ws : OptWs trail) :
      SpellsParam (lead ++ name.toList ++ gap ++ type.name.toList ++ trail) ⟨name, .builtin type⟩

/-- `param ( "," param )*` -/
inductive SpellsParams : List Char → List Param → Prop
  | last {s : List Char} {p : Param} (head : SpellsParam s p) : SpellsParams s [p]
  | more {s t : List Char} {p : Param} {ps : List Param} (head : SpellsParam s p)
      (tail : SpellsParams t ps) : SpellsParams (s ++ ',' :: t) (p :: ps)

/-- `param-group := "(" ( param ( "," param )* )? ")"`, between its parentheses -/
inductive SpellsGroup : List Char → List Param → Prop
  | empty : SpellsGroup [] []
  | params {s : List Char} {ps : List Param} (params : SpellsParams s ps) : SpellsGroup s ps

/-! ### Statements -/

structure ProcedureStatement where
  side : Side
  oneway : Bool
  name : String
  args : List Param
  /-- The return values, if there is a group of them. -/
  rets? : Option (List Param)

/-- `( "oneway" ws )?` -/
inductive SpellsMode : List Char → Bool → Prop
  | oneway {gap : List Char} (gap_ws : Ws gap) : SpellsMode ("oneway".toList ++ gap) true
  | twoway : SpellsMode [] false

/-- `param-group?` -/
inductive SpellsReturns : List Char → Option (List Param) → Prop
  | group {s : List Char} {ps : List Param} (group : SpellsGroup s ps) :
      SpellsReturns ('(' :: s ++ [')']) (some ps)
  | missing : SpellsReturns [] none

/-- `procedure-statement := ( "server" | "client" ) ws ( "oneway" ws )? identifier
ws? param-group ws? param-group?` -/
inductive SpellsProcedure : List Char → ProcedureStatement → Prop
  | procedure {side : Side} {gap mode before args between rets : List Char} {oneway : Bool}
      {name : String} {argList : List Param} {retList? : Option (List Param)} (gap_ws : Ws gap)
      (mode_spelled : SpellsMode mode oneway) (name_id : Identifier name) (before_ws : OptWs before)
      (args_spelled : SpellsGroup args argList) (between_ws : OptWs between)
      (rets_spelled : SpellsReturns rets retList?) :
      SpellsProcedure
        (side.word.toList ++ gap ++ mode ++ name.toList ++ before ++ '(' :: args ++
          ')' :: between ++ rets)
        ⟨side, oneway, name, argList, retList?⟩

/-- `type-expression := identifier | "[]" identifier | "map[" identifier "]" identifier |
"struct" ws? "{"` -/
inductive SpellsTypeExpr : List Char → Statement.TypeExpr → Prop
  | simple {target : String} (target_id : Identifier target) :
      SpellsTypeExpr target.toList (.simple target)
  | slice {element : String} (element_id : Identifier element) :
      SpellsTypeExpr ("[]".toList ++ element.toList) (.slice element)
  | map {key value : String} (key_id : Identifier key) (value_id : Identifier value) :
      SpellsTypeExpr ("map[".toList ++ key.toList ++ "]".toList ++ value.toList) (.map key value)
  | struct {gap : List Char} (gap_ws : OptWs gap) :
      SpellsTypeExpr ("struct".toList ++ gap ++ "\x7b".toList) .struct

/-- `type-statement := "type" ws identifier ws type-expression` -/
inductive SpellsType : List Char → String → Statement.TypeExpr → Prop
  | type {gap between s : List Char} {name : String} {expr : Statement.TypeExpr} (gap_ws : Ws gap)
      (name_id : Identifier name) (between_ws : Ws between) (spelled : SpellsTypeExpr s expr) :
      SpellsType ("type".toList ++ gap ++ name.toList ++ between ++ s) name expr

inductive Line
  | blank
  | procedure (statement : ProcedureStatement)
  | type (name : String) (expr : Statement.TypeExpr)

/-- `statement?`, where `statement := procedure-statement | type-statement` -/
inductive SpellsLine : List Char → Line → Prop
  | blank : SpellsLine [] .blank
  | procedure {s : List Char} {statement : ProcedureStatement}
      (spelled : SpellsProcedure s statement) : SpellsLine s (.procedure statement)
  | type {s : List Char} {name : String} {expr : Statement.TypeExpr}
      (spelled : SpellsType s name expr) : SpellsLine s (.type name expr)

structure Declarations where
  name : String
  body : List Line

/-- `name-statement := "name" ws identifier` -/
inductive SpellsName : List Char → String → Prop
  | name {gap : List Char} {name : String} (gap_ws : Ws gap) (name_id : Identifier name) :
      SpellsName ("name".toList ++ gap ++ name.toList) name

/-- `definition-file := name-statement ( newline statement? )*` -/
inductive Spells : List (List Char) → Declarations → Prop
  | file {first : List Char} {name : String} {rest : List (List Char)} {body : List Line}
      (first_spelled : SpellsName first name) (rest_spelled : List.Forall₂ SpellsLine rest body) :
      Spells (first :: rest) ⟨name, body⟩

/-! ### Validity -/

def Line.procedureName? (side : Side) : Line → Option String
  | .procedure statement => if statement.side = side then some statement.name else none
  | .blank | .type .. => none

def Line.typeName? : Line → Option String
  | .type name _ => some name
  | .blank | .procedure _ => none

def procedureNames (side : Side) (body : List Line) : List String :=
  body.filterMap (Line.procedureName? side)

def typeNames (body : List Line) : List String := body.filterMap Line.typeName?

/-- The name is that of a builtin type or of a type among the lines. -/
def Known (body : List Line) (name : String) : Prop :=
  (∃ b : Builtin, b.name = name) ∨ name ∈ typeNames body

def targets : Statement.TypeExpr → List String
  | .simple target => [target]
  | .slice element => [element]
  | .map key value => [key, value]
  | .struct => []

/-- What is required of a procedure statement by itself. -/
structure ProcedureStatement.Valid (p : ProcedureStatement) : Prop where
  oneway : p.oneway = true → p.rets? = none
  returns : p.rets? ≠ some []
  args : (p.args.map (·.name)).Nodup
  rets : ∀ rets ∈ p.rets?, (rets.map (·.name)).Nodup

/-- What is required of the lines of a body among themselves. -/
structure Valid (body : List Line) : Prop where
  procedure : ∀ p, .procedure p ∈ body → p.Valid
  distinctProcedures : ∀ side, (procedureNames side body).Nodup
  distinctTypes : (typeNames body).Nodup
  notBuiltin : ∀ b : Builtin, b.name ∉ typeNames body
  notStruct : ∀ name, .type name .struct ∉ body
  /-- A type refers to builtin types and to types of earlier lines. -/
  declared : ∀ earlier name expr later, body = earlier ++ .type name expr :: later →
    ∀ target ∈ targets expr, Known earlier target

/-! ### Meaning -/

def ProcedureStatement.procedure (p : ProcedureStatement) (line : Nat) : Procedure :=
  { name := p.name, side := p.side, oneway := p.oneway, args := p.args, rets := p.rets?.getD [],
    line }

/-- The type that a name stands for among the lines of a body. -/
inductive Means (body : List Line) : String → DataType → Prop
  | builtin (type : Builtin) : Means body type.name (.builtin type)
  | simple {name target : String} {type : DataType} (line : .type name (.simple target) ∈ body)
      (target_means : Means body target type) : Means body name (.simple name type)
  | slice {name element : String} {type : DataType} (line : .type name (.slice element) ∈ body)
      (element_means : Means body element type) : Means body name (.slice name type)
  | map {name key value : String} {keyType valueType : DataType}
      (line : .type name (.map key value) ∈ body) (key_means : Means body key keyType)
      (value_means : Means body value valueType) : Means body name (.map name keyType valueType)

/-- A line of the body declares a procedure of a side under a name. The first line of the body is
the second of the text. -/
def Declares (body : List Line) (side : Side) (name : String) (p : Procedure) : Prop :=
  ∃ i statement, body[i]? = some (Line.procedure statement) ∧ statement.side = side ∧
    statement.name = name ∧ statement.procedure (i + 2) = p

/-- A service holds what is declared, under the names it is declared with, and nothing else. -/
structure Defines (d : Declarations) (service : Service) : Prop where
  name : service.name = d.name
  procedures : ∀ side name p, (service.procedures side).find? name = some p ↔
    Declares d.body side name p
  types : ∀ name type, service.types.find? name = some type ↔
    name ∈ typeNames d.body ∧ Means d.body name type

end DuplexRpc.Grammar
