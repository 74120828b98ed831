import DuplexRpc.Endpoint
import DuplexRpc.Session.Calculator
import DuplexRpc.Session.Script

/-!
# Applications of a rehearsal

A rehearsal plays connections step by step. The applications at their ends are chosen
by name or given as scripts. Whatever the application, its side of a connection holds
one peer, which the script and the steps of the rehearsal share; the state of the
session is whether it is still held.
-/

namespace DuplexRpc.Rehearsal

inductive Application
  | idle
  | calculator
  | progress
  | script (script : Script)

def Application.session : Application → Session Bool
  | idle => Session.idle
  | calculator => Calculator.session
  | progress => Progress.session
  | script handlers => Script.session handlers

def setup (service : Service) (side : Side) (application : Application) (config : Config) :
    Setup Bool :=
  { session := application.session, service, side, config, state := true }

end DuplexRpc.Rehearsal
