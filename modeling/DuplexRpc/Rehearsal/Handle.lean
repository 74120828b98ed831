import DuplexRpc.Rehearsal.Report

/-!
# Handles

The steps of a rehearsal that use the peer of one end. An end has a peer from the end
of the handshake until the peer is given up; it outlives the connection, whose end it
can tell.
-/

namespace DuplexRpc.Rehearsal

inductive HandleStep
  /-- Call a procedure of the other end. -/
  | call (procedure : String) (args : Json)
  /-- The caller with the given number stops waiting. -/
  | cancel (number : Nat)
  /-- Ask for the connection to be closed. -/
  | close
  /-- Give the peer up. -/
  | drop
  /-- Ask whether the connection has ended. -/
  | isClosed
  /-- Ask what the peer is. -/
  | describe

inductive Reply
  /-- The call has been made and has the given number. -/
  | started (number : Nat)
  /-- The arguments are no named values. -/
  | notNamed
  | noPeer
  | notWritten
  | closed (isClosed : Bool)
  | described (service : String) (description : String)

/-- What a step comes to: the callers and the endpoint after it, the turn that the endpoint has to
take, and the answer. -/
structure Use where
  callers : Callers
  endpoint : Endpoint Bool
  turn : Option Turn
  reply : Option Reply

/-- The connection to which the peer of an endpoint belongs, unless there is no such peer. -/
def held? (endpoint : Endpoint Bool) : Option (Connection Bool) :=
  endpoint.connection?.filter (·.state)

def HandleStep.use (callers : Callers) (endpoint : Endpoint Bool) (step : HandleStep) : Use :=
  match step, held? endpoint with
  | _, none => { callers, endpoint, turn := none, reply := some .noPeer }
  | .call procedure data, some connection =>
    match Values.ofJson? data with
    | none => { callers, endpoint, turn := none, reply := some .notNamed }
    | some args =>
      { callers := callers ++ [some connection.nextTicket], endpoint,
        turn := some (.call procedure args), reply := some (.started callers.length) }
  | .cancel number, some _ =>
    { callers := callers.set number none, endpoint, turn := none, reply := none }
  | .close, some _ => { callers, endpoint, turn := some .close, reply := none }
  | .drop, some connection =>
    { callers, endpoint := .connected { connection with state := false }, turn := none,
      reply := none }
  | .isClosed, some connection =>
    { callers, endpoint, turn := none, reply := some (.closed connection.isOver) }
  | .describe, some connection =>
    { callers, endpoint, turn := none,
      reply := some (.described connection.service.name connection.peer.describe) }

end DuplexRpc.Rehearsal
