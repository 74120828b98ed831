import DuplexRpc.Link

/-!
# Servers

A server accepts any number of connections until its listener fails; the connections
that it has by then go on. Each has a session and a stream of its own. They share the
service and the configuration, which never change.
-/

namespace DuplexRpc

/-- A server and its connections, in the order in which they were accepted. -/
structure Server (σ : Type) where
  setup : Setup σ
  links : List (Link σ)
  /-- Why it accepts no more connections, once its listener has failed. -/
  failure : Option String

namespace Server

inductive Event (σ : Type)
  /-- It accepts another connection, whose session begins in the given state. -/
  | accept (state : σ)
  /-- Its listener fails. -/
  | failed (reason : String)
  /-- Something happens on one of its connections. -/
  | link (index : Nat) (event : Link.Event)

variable {σ : Type}

def start (setup : Setup σ) : Server σ :=
  { setup := { setup with side := .server }, links := [], failure := none }

/-- Accept another connection, unless the listener has failed. -/
def accept (s : Server σ) (state : σ) : Server σ :=
  if s.failure.isSome then s
  else { s with links := s.links ++ [(Link.start { s.setup with state }).1] }

def fail (s : Server σ) (reason : String) : Server σ :=
  { s with failure := s.failure.or (some reason) }

/-- What one event does. The effects are recorded with the connection on which they happen. -/
def step (s : Server σ) : Event σ → Server σ × List (Nat × Effect)
  | .accept state => (s.accept state, [])
  | .failed reason => (s.fail reason, [])
  | .link index event =>
    match s.links[index]? with
    | none => (s, [])
    | some link =>
      let (link, effects) := link.step event
      ({ s with links := s.links.set index link }, effects.map (index, ·))

def run (s : Server σ) (events : List (Event σ)) : Server σ × List (Nat × Effect) :=
  runSteps step s events

def settle (s : Server σ) (index : Nat) : Server σ × List (Nat × Effect) :=
  match s.links[index]? with
  | none => (s, [])
  | some link =>
    let (link, effects) := link.settle
    ({ s with links := s.links.set index link }, effects.map (index, ·))

end Server

end DuplexRpc
