import DuplexRpc.Endpoint

/-!
# Reports

What a rehearsal tells of one end of a connection after a step: the part of what has
happened that the application, the callers, and whoever started the end can notice.
-/

namespace DuplexRpc.Rehearsal

/-- What the application notices. -/
inductive Entry
  /-- A session is created for a new connection. -/
  | session
  /-- A handler has run. -/
  | handled (procedure : String) (args : Values) (result : Except String Values)
  /-- The session is stopped. -/
  | stopped (error : Option ProtocolError)

/-- What an effect means to the application of a side. Only a server creates a session for each
connection, and a handler that never ends leaves no entry. -/
def Entry.of? (side : Side) : Effect → Option Entry
  | .opened => if side = .server then some session else none
  | .handled procedure args (.returned values) => some (.handled procedure args (.ok values))
  | .handled procedure args (.failed message) => some (.handled procedure args (.error message))
  | .stopped error => some (.stopped error)
  | _ => none

/-- What whoever started an end is told. -/
inductive Verdict
  /-- The server has served the connection to its end. -/
  | served
  /-- The client is connected. -/
  | connected
  | failed (error : ProtocolError)

/-- What an effect means to whoever started an end. A client hears of the handshake only, a server
also of the end of the connection. -/
def Verdict.of? (side : Side) : Effect → Option Verdict
  | .refused error => some (failed error)
  | .opened => if side = .client then some connected else none
  | .stopped error =>
    if side = .server then some (error.elim served failed) else none
  | _ => none

/-- The calls that were made in the steps of a rehearsal, by number: the ticket of each, unless its
caller has stopped waiting. -/
abbrev Callers := List (Option Nat)

def Callers.result? (callers : Callers) : Effect → Option (Nat × Except CallError Values)
  | .resolved ticket result => (callers.idxOf? (some ticket)).map (·, result)
  | _ => none

structure Report where
  log : List Entry
  verdict : Option Verdict
  /-- The results of calls, in the order of their numbers. -/
  calls : List (Nat × Except CallError Values)

def Report.ofEffects (side : Side) (callers : Callers) (effects : List Effect) : Report where
  log := effects.filterMap (Entry.of? side)
  verdict := effects.findSome? (Verdict.of? side)
  calls := (effects.filterMap callers.result?).mergeSort (·.1 ≤ ·.1)

end DuplexRpc.Rehearsal
