import DuplexRpc.Definition.DataType

/-!
# Services

A service lists the procedures that each side of a connection implements. The two
lists are separate tables, so both sides may implement a procedure of one name. A
oneway procedure is never answered.
-/

namespace DuplexRpc

inductive Side
  | server | client
  deriving DecidableEq, Repr

namespace Side

def opposite : Side → Side
  | server => client
  | client => server

@[simp] theorem opposite_opposite (side : Side) : side.opposite.opposite = side := by
  cases side <;> rfl

def word : Side → String
  | server => "server"
  | client => "client"

end Side

structure Param where
  name : String
  type : DataType
  deriving DecidableEq

structure Procedure where
  name : String
  /-- The side that implements it. -/
  side : Side
  /-- Whether calls of it go unanswered. -/
  oneway : Bool
  args : List Param
  rets : List Param
  /-- The line of the declaration, counted from 1. -/
  line : Nat
  deriving DecidableEq

structure Service where
  name : String
  server : Table Procedure
  client : Table Procedure
  types : Table DataType
  deriving DecidableEq

namespace Service

/-- The service of a name alone. -/
def named (name : String) : Service :=
  { name, server := .empty, client := .empty, types := .empty }

/-- The procedures that a side implements. -/
def procedures (s : Service) : Side → Table Procedure
  | .server => s.server
  | .client => s.client

def addProcedure (s : Service) (p : Procedure) : Service :=
  match p.side with
  | .server => { s with server := s.server.insert p.name p }
  | .client => { s with client := s.client.insert p.name p }

def addType (s : Service) (t : DataType) : Service :=
  { s with types := s.types.insert t.name t }

def lookupType (s : Service) (name : String) : Option DataType := DataType.resolve s.types name

end Service

end DuplexRpc
