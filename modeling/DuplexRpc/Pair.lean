import DuplexRpc.Endpoint

/-!
# Pairs

A pair is a client and a server, joined by two channels that deliver every payload
once, unchanged and in order. What one end writes the other end reads later. When one
end is over, the other one cannot write to it any more, and finds its channel closed
once it has read what was still under way.

The two ends take turns in any order; `Pair.run` follows one interleaving. `Pair.settle`
is the interleaving in which an end goes on until it has to wait.
-/

namespace DuplexRpc

/-- A client and a server, and the payloads on their way between them, the oldest first. -/
structure Pair (σ τ : Type) where
  client : Endpoint σ
  server : Endpoint τ
  toClient : List Bytes
  toServer : List Bytes

namespace Pair

variable {σ τ : Type}

/-- What an endpoint reads next from its channel, if there is something, and what is left behind
it. -/
def deliver (reader : Endpoint σ) (writerOver : Bool) (channel : List Bytes) :
    Option Arrival × List Bytes :=
  if reader.reads then
    match channel with
    | payload :: rest => (some (Framing.receive reader.limit payload), rest)
    | [] => (if writerOver then some .closed else none, [])
  else (none, channel)

def written (effects : List Effect) : List Bytes := effects.filterMap Effect.payload?

/-- Join two endpoints that have just begun. -/
def join (client : Endpoint σ × List Effect) (server : Endpoint τ × List Effect) : Pair σ τ :=
  { client := client.1.noteFar server.1.isOver, server := server.1.noteFar client.1.isOver,
    toClient := written server.2, toServer := written client.2 }

/-- Begin a pair of a client and a server. The effects are recorded with the side. -/
def start (client : Setup σ) (server : Setup τ) : Pair σ τ × List (Side × Effect) :=
  let client := Endpoint.start { client with side := .client }
  let server := Endpoint.start { server with side := .server }
  (join client server, client.2.map (.client, ·) ++ server.2.map (.server, ·))

def arrival (p : Pair σ τ) : Side → Option Arrival × List Bytes
  | .client => deliver p.client p.server.isOver p.toClient
  | .server => deliver p.server p.client.isOver p.toServer

def stepClient (p : Pair σ τ) (turn : Turn) : Pair σ τ × List Effect :=
  let (arrival, rest) := p.arrival .client
  match turn.event? arrival with
  | none => (p, [])
  | some event =>
    let (client, effects) := p.client.step event
    ({ client, server := p.server.noteFar client.isOver,
       toClient := if turn = .read then rest else p.toClient,
       toServer := p.toServer ++ written effects }, effects)

def stepServer (p : Pair σ τ) (turn : Turn) : Pair σ τ × List Effect :=
  let (arrival, rest) := p.arrival .server
  match turn.event? arrival with
  | none => (p, [])
  | some event =>
    let (server, effects) := p.server.step event
    ({ client := p.client.noteFar server.isOver, server,
       toClient := p.toClient ++ written effects,
       toServer := if turn = .read then rest else p.toServer }, effects)

/-- What one turn of one side does. The effects are recorded with the side. -/
def step (p : Pair σ τ) : Side × Turn → Pair σ τ × List (Side × Effect)
  | (side, turn) =>
    let (p, effects) := match side with
      | .client => p.stepClient turn
      | .server => p.stepServer turn
    (p, effects.map (side, ·))

def run (p : Pair σ τ) (turns : List (Side × Turn)) : Pair σ τ × List (Side × Effect) :=
  runSteps step p turns

def effectsOn (side : Side) (effects : List (Side × Effect)) : List Effect :=
  effects.filterMap fun (on, effect) => if on = side then some effect else none

def nextTurn? (p : Pair σ τ) (side : Side) : Option Turn :=
  match side with
  | .client => p.client.nextTurn? (p.arrival side).1
  | .server => p.server.nextTurn? (p.arrival side).1

/-- Let the ends go on until both have to wait, up to a number of turns. The given side goes on
as long as it can before the other one does. -/
def settle : Nat → Side → Pair σ τ → Pair σ τ × List (Side × Effect)
  | 0, _, p => (p, [])
  | turns + 1, side, p =>
    let next := (p.nextTurn? side).map (side, ·) <|>
      (p.nextTurn? side.opposite).map (side.opposite, ·)
    match next with
    | none => (p, [])
    | some (side, turn) =>
      let (p, first) := p.step (side, turn)
      let (p, later) := p.settle turns side
      (p, first ++ later)

end Pair

end DuplexRpc
