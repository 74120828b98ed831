import DuplexRpc.Framing
import DuplexRpc.PendingCalls
import DuplexRpc.Session
import DuplexRpc.Steps

/-!
# Connections

One end of a connection after the handshake, as a state machine. It serves the
requests of the far end with its session, one envelope at a time, and writes the
requests that its own peers have queued in between.

Every call that is made on the end gets a ticket. A call that passes its checks is
queued, then written, and a two-way call then waits for its response; in the end its
ticket is resolved, at the latest when the connection ends. What happens is recorded
as effects in the order in which it happens.
-/

namespace DuplexRpc

/-- A call that has passed its checks. -/
structure Call where
  ticket : Nat
  procedure : Procedure
  args : Values
  deriving DecidableEq

/-- What peers have asked a connection to do. -/
inductive Command
  | call (call : Call)
  | close
  deriving DecidableEq

inductive Phase
  | serving
  /-- It waits for something that cannot happen. -/
  | stuck
  /-- It has ended, with an error unless it was closed. -/
  | ended (error : Option ProtocolError)
  deriving DecidableEq, Repr

/-- What happens at one end of a connection. -/
inductive Effect
  /-- A peer calls a procedure of the far end. -/
  | called (ticket : Nat) (procedure : String) (args : Values)
  /-- A peer's command is queued. -/
  | queued (command : Command)
  /-- A text of the handshake is written. -/
  | greeted (text : String)
  /-- The handshake is done. -/
  | opened
  /-- The handshake has failed. -/
  | refused (error : ProtocolError)
  /-- What the stream delivers is read. -/
  | received (arrival : Arrival)
  /-- A handler runs. -/
  | handled (procedure : String) (args : Values) (outcome : Outcome)
  /-- A response is written. -/
  | responded (response : Envelope)
  /-- The request of a call is written. -/
  | requested (ticket : Nat) (request : Envelope)
  /-- A call has its result. -/
  | resolved (ticket : Nat) (result : Except CallError Values)
  /-- The session is stopped. -/
  | stopped (error : Option ProtocolError)

def Effect.payload? : Effect → Option Bytes
  | greeted text => some (Text.utf8 text)
  | responded envelope | requested _ envelope => some envelope.toBytes
  | _ => none

/-- What can happen to an end of a connection. -/
inductive Event
  /-- It reads what the stream delivers next. -/
  | arrival (arrival : Arrival)
  /-- It takes up the next command. -/
  | command
  /-- A peer calls a procedure of the far end. -/
  | call (procedure : String) (args : Values)
  /-- A peer asks for the connection to be closed. -/
  | close
  /-- The last peer is given up. -/
  | peersGone
  /-- The far end reads no more. -/
  | farGone
  deriving DecidableEq

/-- One end of a connection after the handshake. -/
structure Connection (σ : Type) where
  session : Session σ
  service : Service
  /-- The side whose procedures this end serves. -/
  side : Side
  outlet : Outlet
  /-- The state of the session. -/
  state : σ
  /-- What peers have asked for, the oldest first. -/
  queue : List Command
  /-- Whether there still is a peer. -/
  hasPeers : Bool
  /-- The calls that wait for a response. -/
  pending : PendingCalls Call
  /-- The ticket of the next call. -/
  nextTicket : Nat
  phase : Phase

namespace Connection

variable {σ : Type}

/-- A connection whose handshake has just been done. -/
def start (session : Session σ) (service : Service) (side : Side) (outlet : Outlet) (state : σ) :
    Connection σ :=
  { session, service, side, outlet, state, queue := [], hasPeers := true, pending := .empty,
    nextTicket := 0, phase := .serving }

def peer (c : Connection σ) : Peer := { service := c.service, side := c.side.opposite }

def isOver (c : Connection σ) : Bool :=
  match c.phase with
  | .ended _ => true
  | _ => false

/-- The tickets of the two-way calls that have no result yet: those that wait for a response, the
oldest first, and then those that are still queued. -/
def unresolved (c : Connection σ) : List Nat :=
  (c.pending.waiting.map (·.2.ticket)).reverse ++
    c.queue.filterMap fun
      | .call call => if call.procedure.oneway then none else some call.ticket
      | .close => none

/-- End the connection: the session is stopped, and then the calls without a result fail. -/
def finish (c : Connection σ) (error : Option ProtocolError) : Connection σ × List Effect :=
  ({ c with queue := [], pending := { c.pending with waiting := [] }, phase := .ended error },
    .stopped error :: c.unresolved.map fun ticket => .resolved ticket (.error .connectionClosed))

def fail (c : Connection σ) (error : ProtocolError) : Connection σ × List Effect :=
  c.finish (some error)

/-! ### Peers -/

/-- Whether a command can be queued: somebody must be there to take it up, and a peer to give it. -/
def accepts (c : Connection σ) : Bool := !c.isOver && c.hasPeers

def enqueue (c : Connection σ) (command : Command) : Connection σ × List Effect :=
  ({ c with queue := c.queue ++ [command] }, [.queued command])

/-- Make a call. Its checks come first, even when the connection has ended. A oneway call has its
result as soon as it is queued. -/
def call (c : Connection σ) (name : String) (args : Values) : Connection σ × List Effect :=
  let ticket := c.nextTicket
  let c := { c with nextTicket := ticket + 1 }
  let (c, effects) := match c.peer.prepare name args with
    | .error e => (c, [.resolved ticket (.error e)])
    | .ok (procedure, args) =>
      if c.accepts then
        let (c, effects) := c.enqueue (.call { ticket, procedure, args })
        (c, effects ++ if procedure.oneway then [.resolved ticket (.ok .empty)] else [])
      else (c, [.resolved ticket (.error .connectionClosed)])
  (c, .called ticket name args :: effects)

def close (c : Connection σ) : Connection σ × List Effect :=
  if c.accepts then c.enqueue .close else (c, [])

def submitOne (c : Connection σ) : Request → Connection σ × List Effect
  | .call name args => c.call name args
  | .close => c.close

def submit (c : Connection σ) (requests : List Request) : Connection σ × List Effect :=
  runSteps submitOne c requests

/-! ### Incoming envelopes -/

/-- The response to a request whose handler has ended. Values that do not fit the declared return
values make an error, as the failure of the handler does. -/
def responseTo (id : CallbackId) (procedure : Procedure) : Outcome → Option Envelope
  | .returned values =>
    some <| match conform procedure.rets (some values.toJson) with
      | .ok rets => .response id rets
      | .error e => .errorResponse id (.returned e.message)
  | .failed message => some (.errorResponse id (.returned message))
  | .stuck => none

def respond (c : Connection σ) (response : Envelope) : Connection σ × List Effect :=
  match c.outlet.refuse? response.toBytes with
  | none => (c, [.responded response])
  | some fault => c.fail (.transport fault)

/-- Run the handler of a procedure and answer, unless the procedure is oneway. -/
def runHandler (c : Connection σ) (id : CallbackId) (procedure : Procedure) (args : Values) :
    Connection σ × List Effect :=
  let run := c.session.handle c.peer c.state procedure args
  let (c, submitted) := { c with state := run.state }.submit run.requests
  let record := .handled procedure.name args run.outcome :: submitted
  match responseTo id procedure run.outcome with
  | none => ({ c with phase := .stuck }, record)
  | some response =>
    if procedure.oneway then (c, record)
    else
      let (c, answered) := c.respond response
      (c, record ++ answered)

/-- Serve a request, for which the procedure must exist and the data must fit it. -/
def serve (c : Connection σ) (request : Envelope) : Connection σ × List Effect :=
  match (c.service.procedures c.side).find? request.procedure with
  | none => c.fail (.unknownProcedure request.procedure)
  | some procedure =>
    match conform procedure.args request.data with
    | .error e => c.fail (.invalidData procedure.name e)
    | .ok args => c.runHandler request.callbackId procedure args

/-- The result that a response brings for a call. An error in it counts more than data. -/
def resultOf (procedure : Procedure) (response : Envelope) : Except CallError Values :=
  match response.error with
  | some error => .error (.remote error)
  | none =>
    match conform procedure.rets response.data with
    | .ok values => .ok values
    | .error e => .error (.invalidData e)

/-- Hand a response to the call that waits for it; one that no call waits for means nothing. -/
def settle (c : Connection σ) (response : Envelope) : Connection σ × List Effect :=
  match c.pending.take response.callbackId with
  | none => (c, [])
  | some (call, pending) =>
    ({ c with pending }, [.resolved call.ticket (resultOf call.procedure response)])

def arrive (c : Connection σ) : Arrival → Connection σ × List Effect
  | .closed => c.finish none
  | .fault fault => c.fail (.transport fault)
  | .frame payload =>
    match Envelope.ofBytes? payload with
    | none => c.fail .malformedEnvelope
    | some envelope =>
      match envelope.kind with
      | .request => c.serve envelope
      | .response => c.settle envelope

def receive (c : Connection σ) (arrival : Arrival) : Connection σ × List Effect :=
  let (c, effects) := c.arrive arrival
  (c, .received arrival :: effects)

/-! ### Outgoing requests -/

def write (c : Connection σ) (call : Call) (id : CallbackId) : Connection σ × List Effect :=
  let request := Envelope.request call.procedure.name id call.args
  match c.outlet.refuse? request.toBytes with
  | none => (c, [.requested call.ticket request])
  | some fault => c.fail (.transport fault)

/-- Send a call. A two-way call waits from then on, even if its request cannot be written. Without
a free id the search for one never ends. -/
def send (c : Connection σ) (call : Call) : Connection σ × List Effect :=
  if call.procedure.oneway then c.write call .none
  else
    match c.pending.register? call with
    | none => ({ c with queue := .call call :: c.queue, phase := .stuck }, [])
    | some (id, pending) => { c with pending }.write call id

def takeCommand (c : Connection σ) : Connection σ × List Effect :=
  match c.queue with
  | [] => (c, [])
  | .close :: rest => { c with queue := rest }.finish none
  | .call call :: rest => { c with queue := rest }.send call

/-! ### Runs -/

/-- What one event does. Only a serving connection reads and takes up commands. -/
def step (c : Connection σ) : Event → Connection σ × List Effect
  | .arrival arrival => if c.phase = .serving then c.receive arrival else (c, [])
  | .command => if c.phase = .serving then c.takeCommand else (c, [])
  | .call name args => c.call name args
  | .close => c.close
  | .peersGone => (if c.queue.isEmpty then { c with hasPeers := false } else c, [])
  | .farGone => ({ c with outlet := { c.outlet with isOpen := false } }, [])

def run (c : Connection σ) (events : List Event) : Connection σ × List Effect :=
  runSteps step c events

end Connection

end DuplexRpc
