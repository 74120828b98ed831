import DuplexRpc.Pair
import DuplexRpc.Rehearsal.Application
import DuplexRpc.Rehearsal.Handle

/-!
# Duo rehearsals

A client and a server that are joined to each other. The steps use the peers of either
end. After every step both ends go on until both have to wait, and then report.
-/

namespace DuplexRpc.Rehearsal

/-- A pair and the calls that the steps have made on either end. -/
structure Duo where
  pair : Pair Bool Bool
  clientCallers : Callers
  serverCallers : Callers

namespace Duo

structure Report where
  client : Rehearsal.Report
  server : Rehearsal.Report
  reply : Option Reply

/-- How many turns the ends may take after a step. Two applications that answer every call with
another one would go on for ever. -/
def patience : Nat := 1 <<< 20

def settle (d : Duo) (side : Side) (effects : List (Side × Effect)) (reply : Option Reply) :
    Duo × Report :=
  let (pair, later) := d.pair.settle patience side
  let effects := effects ++ later
  ({ d with pair },
    { client := .ofEffects .client d.clientCallers (Pair.effectsOn .client effects)
      server := .ofEffects .server d.serverCallers (Pair.effectsOn .server effects)
      reply })

def start (client server : Setup Bool) : Duo × Report :=
  let (pair, effects) := Pair.start client server
  settle { pair, clientCallers := [], serverCallers := [] } .client effects none

def callers (d : Duo) : Side → Callers
  | .client => d.clientCallers
  | .server => d.serverCallers

def endpoint (d : Duo) : Side → Endpoint Bool
  | .client => d.pair.client
  | .server => d.pair.server

def update (d : Duo) (side : Side) (use : Use) : Duo :=
  match side with
  | .client =>
    { d with pair := { d.pair with client := use.endpoint }, clientCallers := use.callers }
  | .server =>
    { d with pair := { d.pair with server := use.endpoint }, serverCallers := use.callers }

def step (d : Duo) (side : Side) (step : HandleStep) : Duo × Report :=
  let use := step.use (d.callers side) (d.endpoint side)
  let d := d.update side use
  let (pair, effects) := d.pair.run (use.turn.toList.map (side, ·))
  settle { d with pair } side effects use.reply

def run (d : Duo) : List (Side × HandleStep) → List Report
  | [] => []
  | (side, step) :: rest =>
    let (d, report) := d.step side step
    report :: d.run rest

/-- The reports of a whole rehearsal: the first one after the beginning, then one for each step. -/
def rehearse (client server : Setup Bool) (steps : List (Side × HandleStep)) : List Report :=
  let (d, report) := start client server
  report :: d.run steps

end Duo

end DuplexRpc.Rehearsal
