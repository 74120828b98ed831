import DuplexRpc.Config
import DuplexRpc.Connection

/-!
# Endpoints

An end of a connection from its first byte. The client opens with its protocol
version. The server compares it with its own and answers `good` or `invalid`; only
after `good` is there a session, and there are peers and handlers.
-/

namespace DuplexRpc

structure Setup (σ : Type) where
  session : Session σ
  service : Service
  side : Side
  config : Config
  /-- The first state of the session. -/
  state : σ

/-- An end of a connection. -/
inductive Endpoint (σ : Type)
  /-- It waits for the far end's part of the handshake. -/
  | greeting (setup : Setup σ) (outlet : Outlet)
  | connected (connection : Connection σ)
  /-- The handshake has failed. -/
  | refused (error : ProtocolError)

namespace Endpoint

variable {σ : Type}

/-- The server's answer to the right version. -/
def acceptance : String := "good"

/-- The server's answer to any other version. -/
def rejection : String := "invalid"

def refuse (error : ProtocolError) : Endpoint σ × List Effect := (.refused error, [.refused error])

def connect (setup : Setup σ) (outlet : Outlet) : Endpoint σ :=
  .connected (.start setup.session setup.service setup.side outlet setup.state)

/-- Begin: the client sends its version. -/
def start (setup : Setup σ) : Endpoint σ × List Effect :=
  let outlet : Outlet := { limit := setup.config.maxFrame, isOpen := true }
  match setup.side with
  | .server => (.greeting setup outlet, [])
  | .client =>
    match outlet.refuse? (Text.utf8 setup.config.version) with
    | none => (.greeting setup outlet, [.greeted setup.config.version])
    | some fault => refuse (.transport fault)

/-- The server's part, given the version of the client. The rejection is sent only if that is
possible; the outcome does not depend on it. -/
def accept (setup : Setup σ) (outlet : Outlet) (received : String) : Endpoint σ × List Effect :=
  let expected := setup.config.version
  if received = expected then
    match outlet.refuse? (Text.utf8 acceptance) with
    | none => (connect setup outlet, [.greeted acceptance, .opened])
    | some fault => refuse (.transport fault)
  else
    let sent := match outlet.refuse? (Text.utf8 rejection) with
      | none => [.greeted rejection]
      | some _ => []
    let (endpoint, effects) := refuse (.versionMismatch expected received)
    (endpoint, sent ++ effects)

def conclude (setup : Setup σ) (outlet : Outlet) (reply : String) : Endpoint σ × List Effect :=
  if reply = acceptance then (connect setup outlet, [.opened])
  else if reply = rejection then refuse (.handshakeRejected setup.config.version)
  else refuse (.invalidHandshake (.unexpectedReply reply))

/-- Read what the stream delivers in place of the far end's part of the handshake. -/
def greet (setup : Setup σ) (outlet : Outlet) : Arrival → Endpoint σ × List Effect
  | .closed => refuse (.invalidHandshake .closed)
  | .fault fault => refuse (.transport fault)
  | .frame payload =>
    match Text.ofUtf8? payload with
    | none => refuse (.invalidHandshake .notText)
    | some text =>
      match setup.side with
      | .server => accept setup outlet text
      | .client => conclude setup outlet text

/-- What one event does. Before the handshake is done there are no peers. -/
def step (e : Endpoint σ) (event : Event) : Endpoint σ × List Effect :=
  match e with
  | .greeting setup outlet =>
    match event with
    | .arrival arrival => greet setup outlet arrival
    | .farGone => (.greeting setup { outlet with isOpen := false }, [])
    | _ => (e, [])
  | .connected c =>
    let (c, effects) := c.step event
    (.connected c, effects)
  | .refused _ => (e, [])

def run (e : Endpoint σ) (events : List Event) : Endpoint σ × List Effect :=
  runSteps step e events

def isOver : Endpoint σ → Bool
  | .greeting .. => false
  | .connected c => c.isOver
  | .refused _ => true

def connection? : Endpoint σ → Option (Connection σ)
  | .connected c => some c
  | _ => none

def reads : Endpoint σ → Bool
  | .greeting .. => true
  | .connected c => c.phase = .serving
  | .refused _ => false

def hasCommand : Endpoint σ → Bool
  | .connected c => c.phase = .serving && !c.queue.isEmpty
  | _ => false

/-- The longest payload that the endpoint reads or writes. -/
def limit : Endpoint σ → Nat
  | .greeting _ outlet => outlet.limit
  | .connected c => c.outlet.limit
  | .refused _ => 0

/-- Note that the far end does not read any more, if that is so. -/
def noteFar (e : Endpoint σ) (isGone : Bool) : Endpoint σ :=
  if isGone then (e.step .farGone).1 else e

end Endpoint

/-- What an endpoint may do next when its input comes from something else that it is attached to. -/
inductive Turn
  /-- It reads what the stream delivers next, if there is something. -/
  | read
  /-- It takes up the next command. -/
  | command
  /-- A peer calls a procedure of the far end. -/
  | call (procedure : String) (args : Values)
  /-- A peer asks for the connection to be closed. -/
  | close
  /-- The last peer is given up. -/
  | peersGone
  deriving DecidableEq

def Turn.event? (arrival : Option Arrival) : Turn → Option Event
  | read => arrival.map .arrival
  | command => some .command
  | call procedure args => some (.call procedure args)
  | close => some .close
  | peersGone => some .peersGone

/-- The turn that an endpoint takes by itself: queued commands come before further input. -/
def Endpoint.nextTurn? {σ : Type} (e : Endpoint σ) (arrival : Option Arrival) : Option Turn :=
  if e.hasCommand then some .command else arrival.map fun _ => .read

end DuplexRpc
