import DuplexRpc.Link
import DuplexRpc.Rehearsal.Application
import DuplexRpc.Rehearsal.Handle

/-!
# Solo rehearsals

One end of a connection, with a far end that is played by the steps: it writes bytes of
its own choice, stops, or goes away. After every step the end goes on until it has to
wait, and then reports.
-/

namespace DuplexRpc.Rehearsal

/-- A link and the calls that the steps have made on it. -/
structure Solo where
  side : Side
  link : Link Bool
  callers : Callers

namespace Solo

inductive Step
  /-- The far end writes. -/
  | write (bytes : Bytes)
  /-- The far end writes, and goes away before anything is read. -/
  | writeAndLeave (bytes : Bytes)
  /-- The far end will not write any more. -/
  | shut
  /-- The far end goes away. -/
  | leave
  /-- The peer is used. -/
  | handle (step : HandleStep)

structure Report extends Rehearsal.Report where
  /-- The payloads that the end has written. -/
  sent : List Bytes
  /-- Whether the far end sees the stream end. -/
  eof : Bool

/-- Go on until the end has to wait, and report what has happened. It is known whether the
endpoint was over before. -/
def settle (s : Solo) (wasOver : Bool) (effects : List Effect) : Solo × Report :=
  let (link, later) := s.link.settle
  let effects := effects ++ later
  ({ s with link },
    { Rehearsal.Report.ofEffects s.side s.callers effects with
      sent := effects.filterMap Effect.payload?
      eof := !wasOver && link.endpoint.isOver && link.farReads })

def start (setup : Setup Bool) : Solo × Report :=
  let (link, effects) := Link.start setup
  settle { side := setup.side, link, callers := [] } false effects

def play (s : Solo) (events : List Link.Event) : Solo × Report :=
  let (link, effects) := s.link.run events
  settle { s with link } s.link.endpoint.isOver effects

def step (s : Solo) : Step → Solo × Report × Option Reply
  | .write bytes => withReply (s.play [.bytes bytes]) (writing s bytes)
  | .writeAndLeave bytes => withReply (s.play [.bytes bytes, .gone]) (writing s bytes)
  | .shut => withReply (s.play [.shut]) none
  | .leave => withReply (s.play [.gone]) none
  | .handle step =>
    let use := step.use s.callers s.link.endpoint
    let s := { s with link := { s.link with endpoint := use.endpoint }, callers := use.callers }
    withReply (s.play (use.turn.toList.map .turn)) use.reply
where
  /-- The answer to a step that writes. To write nothing succeeds also when the stream is gone. -/
  writing (s : Solo) (bytes : Bytes) : Option Reply :=
    if bytes.isEmpty || s.link.isWritable then none else some .notWritten
  /-- Add the answer. -/
  withReply (played : Solo × Report) (reply : Option Reply) : Solo × Report × Option Reply :=
    (played.1, played.2, reply)

def run (s : Solo) : List Step → List (Report × Option Reply)
  | [] => []
  | step :: rest =>
    let (s, report, reply) := s.step step
    (report, reply) :: s.run rest

/-- The reports of a whole rehearsal: the first one after the beginning, then one for each step. -/
def rehearse (setup : Setup Bool) (steps : List Step) : List (Report × Option Reply) :=
  let (s, report) := start setup
  (report, none) :: s.run steps

end Solo

end DuplexRpc.Rehearsal
