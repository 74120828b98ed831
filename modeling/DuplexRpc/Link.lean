import DuplexRpc.Endpoint

/-!
# Links

A link is an endpoint on its byte stream. Bytes come from a far end about which nothing
is assumed: it may write anything in any pieces, stop writing, or go away. The link
cuts the bytes into frames, which the endpoint reads one by one.

A far end that has gone away does not read, so from then on nothing can be written to
it; what it wrote before is still there to be read.
-/

namespace DuplexRpc

/-- An endpoint on its byte stream. -/
structure Link (σ : Type) where
  endpoint : Endpoint σ
  /-- The bytes from the far end that have not been read. -/
  inbound : Framing
  /-- Whether the far end may still write. -/
  farWrites : Bool
  /-- Whether the far end still reads. -/
  farReads : Bool

namespace Link

inductive Event
  /-- The far end writes. -/
  | bytes (bytes : Bytes)
  /-- The far end will not write any more. -/
  | shut
  /-- The far end goes away. -/
  | gone
  /-- The endpoint takes a turn. -/
  | turn (turn : Turn)

variable {σ : Type}

def start (setup : Setup σ) : Link σ × List Effect :=
  let (endpoint, effects) := Endpoint.start setup
  ({ endpoint, inbound := .start, farWrites := true, farReads := true }, effects)

def isWritable (l : Link σ) : Bool := l.farWrites && !l.endpoint.isOver

/-- What the endpoint reads next, if there is something, and what is left behind it. -/
def arrival (l : Link σ) : Option Arrival × Framing :=
  if l.endpoint.reads then l.inbound.next l.endpoint.limit !l.farWrites else (none, l.inbound)

def step (l : Link σ) : Event → Link σ × List Effect
  | .bytes bytes => (if l.isWritable then { l with inbound := l.inbound.push bytes } else l, [])
  | .shut => ({ l with farWrites := false }, [])
  | .gone =>
    ({ l with endpoint := l.endpoint.noteFar true, farWrites := false, farReads := false }, [])
  | .turn turn =>
    let (arrival, inbound) := if turn = .read then l.arrival else (none, l.inbound)
    match turn.event? arrival with
    | none => (l, [])
    | some event =>
      let (endpoint, effects) := l.endpoint.step event
      ({ l with endpoint, inbound }, effects)

def run (l : Link σ) (events : List Event) : Link σ × List Effect := runSteps step l events

/-- Let the endpoint take up all its commands. -/
def flush (l : Link σ) : Link σ × List Effect :=
  l.run <| match l.endpoint.connection? with
    | some c => List.replicate c.queue.length (.turn .command)
    | none => []

/-- Let the endpoint go on until it has to wait, up to a number of arrivals. -/
def settleWithin : Nat → Link σ → Link σ × List Effect
  | 0, l => l.flush
  | arrivals + 1, l =>
    let (l, sent) := l.flush
    if l.arrival.1.isNone then (l, sent)
    else
      let (l, first) := l.step (.turn .read)
      let (l, later) := settleWithin arrivals l
      (l, sent ++ first ++ later)

/-- Let the endpoint go on until it has to wait. Every arrival but the end of the stream uses up
bytes or a length that has been read before. -/
def settle (l : Link σ) : Link σ × List Effect := l.settleWithin (l.inbound.buffer.length + 2)

end Link

end DuplexRpc
