import DuplexRpc.Server
import DuplexRpc.Rehearsal.Application

/-!
# Crowd rehearsals

A server with several clients, which are played by the steps. Each client writes frames
and reads the payloads that the server has written to it, oldest first.
-/

namespace DuplexRpc.Rehearsal

/-- A client: the payloads that it has not read yet, unless it has left. -/
abbrev Visitor := Option (List Bytes)

/-- A server and its clients, in the order of its connections. -/
structure Crowd where
  server : Server Bool
  visitors : List Visitor

namespace Crowd

inductive Step
  /-- The client writes a frame, and then reads a number of payloads. -/
  | exchange (payload : Bytes) (replies : Nat)
  /-- The client leaves. -/
  | leave

inductive Answer
  /-- Whether the frame was written, and the payloads that were read; none where the connection had
  ended. -/
  | exchanged (written : Bool) (replies : List (Option Bytes))
  | left
  /-- The client had left before. -/
  | closed

def start (setup : Setup Bool) (clients : Nat) : Crowd :=
  { server := ((Server.start setup).run (List.replicate clients (.accept setup.state))).1
    visitors := List.replicate clients (some []) }

/-- Let an event happen on a connection, and the endpoint go on until it has to wait. The result
holds what has been written. -/
def play (server : Server Bool) (index : Nat) (event : Link.Event) : Server Bool × List Bytes :=
  let (server, first) := server.step (.link index event)
  let (server, later) := server.settle index
  (server, (first ++ later).filterMap (·.2.payload?))

def read (replies : Nat) (unread : List Bytes) : List (Option Bytes) × List Bytes :=
  ((List.range replies).map (unread[·]?), unread.drop replies)

def step (c : Crowd) (index : Nat) (step : Step) : Crowd × Answer :=
  match (c.visitors[index]?).join, c.server.links[index]?, step with
  | some unread, some link, .exchange payload replies =>
    let (server, sent) := play c.server index (.bytes (Framing.encode payload))
    let (replies, unread) := read replies (unread ++ sent)
    ({ server, visitors := c.visitors.set index (some unread) },
      .exchanged link.isWritable replies)
  | some _, some _, .leave =>
    let (server, _) := play c.server index .gone
    ({ server, visitors := c.visitors.set index none }, .left)
  | _, _, _ => (c, .closed)

def run (c : Crowd) : List (Nat × Step) → List Answer
  | [] => []
  | (index, step) :: rest =>
    let (c, answer) := c.step index step
    answer :: c.run rest

/-- The answers of a whole rehearsal, one for each step. -/
def rehearse (setup : Setup Bool) (clients : Nat) (steps : List (Nat × Step)) : List Answer :=
  (start setup clients).run steps

end Crowd

end DuplexRpc.Rehearsal
