import DuplexRpc.Failure

/-!
# Peers

A peer is how one end of a connection speaks of the procedures of the other. Before a
call is sent anywhere, its procedure is looked up and its arguments are checked, so a
call that fails these checks leaves no trace.
-/

namespace DuplexRpc

/-- The procedures of the other end of a connection. -/
structure Peer where
  service : Service
  /-- The side that implements the procedures. -/
  side : Side

namespace Peer

/-- The procedure and the checked arguments of a call. -/
def prepare (peer : Peer) (name : String) (args : Values) :
    Except CallError (Procedure × Values) :=
  match (peer.service.procedures peer.side).find? name with
  | none => .error (.unknownProcedure name)
  | some procedure =>
    match conform procedure.args (some args.toJson) with
    | .ok args => .ok (procedure, args)
    | .error e => .error (.invalidData e)

def describe (peer : Peer) : String :=
  "Peer \x7b service: Identifier(" ++ Text.quote peer.service.name ++ "), direction: " ++
    (match peer.side with
      | .server => "Server"
      | .client => "Client") ++
    ", .. \x7d"

end Peer

end DuplexRpc
