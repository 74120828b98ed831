import DuplexRpc.Proofs.Connection.Calls
import DuplexRpc.Proofs.Connection.Sequential

/-!
# How a connection ends

A connection ends in one step, for one of the reasons that are listed here, and in this step
its session is stopped. Before it no session is stopped, and after it no handler runs.
-/

namespace DuplexRpc

/-- With what a session is stopped, if it is. -/
def Effect.stopped? : Effect → Option (Option ProtocolError)
  | stopped error => some error
  | _ => none

abbrev Trace.stops : List Effect → List (Option ProtocolError) := view Effect.stopped?

theorem Trace.stops_append (t u : List Effect) : stops (t ++ u) = stops t ++ stops u :=
  view_append _ t u

/-- What peers ask for stops no session. -/
theorem Trace.Asking.stops {t : List Effect} (h : Asking t) : Trace.stops t = [] := by
  refine view_eq_nil fun effect hmem => ?_
  have := h effect hmem
  cases effect <;> first | rfl | cases this

namespace Connection

variable {σ : Type} {c : Connection σ}

theorem run_cons (c : Connection σ) (event : Event) (rest : List Event) :
    c.run (event :: rest) =
      (((c.step event).1.run rest).1, (c.step event).2 ++ ((c.step event).1.run rest).2) :=
  runSteps_cons step c event rest

/-- The reasons for which a serving connection ends, each with the event in which it ends and the
error that it ends with. -/
inductive EndsBy (c : Connection σ) : Event → Option ProtocolError → Prop
  /-- The stream has ended behind its last whole frame, or behind a length with no payload yet. -/
  | eof : EndsBy c (.arrival .closed) none
  /-- A peer has asked for it. -/
  | closed {rest : List Command} (hqueue : c.queue = .close :: rest) : EndsBy c .command none
  | fault (fault : TransportFault) : EndsBy c (.arrival (.fault fault)) (some (.transport fault))
  | malformed {payload : Bytes} (hread : Envelope.ofBytes? payload = none) :
      EndsBy c (.arrival (.frame payload)) (some .malformedEnvelope)
  | unknown {payload : Bytes} {request : Envelope}
      (hread : Envelope.ofBytes? payload = some request) (hkind : request.kind = .request)
      (hfind : (c.service.procedures c.side).find? request.procedure = none) :
      EndsBy c (.arrival (.frame payload)) (some (.unknownProcedure request.procedure))
  | invalid {payload : Bytes} {request : Envelope} {procedure : Procedure} {error : PayloadError}
      (hread : Envelope.ofBytes? payload = some request) (hkind : request.kind = .request)
      (hfind : (c.service.procedures c.side).find? request.procedure = some procedure)
      (hconform : conform procedure.args request.data = .error error) :
      EndsBy c (.arrival (.frame payload)) (some (.invalidData procedure.name error))
  /-- The response to a request cannot be written. -/
  | unanswered {payload : Bytes} {request response : Envelope} {procedure : Procedure}
      {args : Values} {run : Run σ} {fault : TransportFault}
      (hread : Envelope.ofBytes? payload = some request) (hkind : request.kind = .request)
      (hruns : Runs c request procedure args run)
      (hresponse : responseTo request.callbackId procedure run.outcome = some response)
      (honeway : procedure.oneway = false)
      (hrefuse : c.outlet.refuse? response.toBytes = some fault) :
      EndsBy c (.arrival (.frame payload)) (some (.transport fault))
  /-- The request of a call cannot be written. -/
  | unsent {d : Connection σ} {call : Call} {id : CallbackId} {fault : TransportFault}
      (htaken : Taken c call id d)
      (hrefuse : d.outlet.refuse? (Envelope.request call.procedure.name id call.args).toBytes =
        some fault) :
      EndsBy c .command (some (.transport fault))

/-- A connection ends without an error at the end of the stream and when a peer asks for it, and in
no other case. -/
theorem EndsBy.eq_none_iff {event : Event} {error : Option ProtocolError}
    (h : EndsBy c event error) :
    error = none ↔ event = .arrival .closed ∨ event = .command ∧ c.queue.head? = some .close := by
  cases h with
  | eof => exact ⟨fun _ => .inl rfl, fun _ => rfl⟩
  | closed hqueue => exact ⟨fun _ => .inr ⟨rfl, by rw [hqueue]; rfl⟩, fun _ => rfl⟩
  | unsent htaken _ =>
      refine ⟨nofun, ?_⟩
      rintro (⟨⟨⟩⟩ | ⟨_, hclose⟩)
      cases htaken with
      | oneway hqueue _ => simp [hqueue] at hclose
      | twoWay hqueue _ _ => simp [hqueue] at hclose
  | _ => exact ⟨nofun, by rintro (⟨⟨⟩⟩ | ⟨⟨⟩, _⟩)⟩

/-- How a serving connection can stop serving: it ends, or it waits for something that cannot
happen. -/
inductive Halts (c : Connection σ) : Event → Phase → Prop
  | ended {event : Event} {error : Option ProtocolError} (hends : EndsBy c event error) :
      Halts c event (.ended error)
  /-- The handler never returns. -/
  | unreturned {payload : Bytes} {request : Envelope} {procedure : Procedure} {args : Values}
      {run : Run σ} (hread : Envelope.ofBytes? payload = some request)
      (hkind : request.kind = .request) (hruns : Runs c request procedure args run)
      (hresponse : responseTo request.callbackId procedure run.outcome = none) :
      Halts c (.arrival (.frame payload)) .stuck
  | barred (hbarred : c.IsBarred) : Halts c .command .stuck

/-! ### What does not end a connection -/

/-- A connection that is not serving does not stop its session. -/
theorem stops_step (hp : c.phase ≠ .serving) (event : Event) :
    Trace.stops (c.step event).2 = [] := by
  cases event with
  | arrival arrival => rw [step, if_neg hp]; rfl
  | command => rw [step, if_neg hp]; rfl
  | call name args => exact (asking_call c name args).stops
  | close => exact (asking_close c).stops
  | peersGone => rw [step]; split <;> rfl
  | farGone => rfl

theorem stops_run (hp : c.phase ≠ .serving) (events : List Event) :
    (c.run events).1.phase = c.phase ∧ Trace.stops (c.run events).2 = [] := by
  induction events generalizing c with
  | nil => exact ⟨rfl, rfl⟩
  | cons event rest ih =>
      have unread : ∀ arrival, event = .arrival arrival → c.phase ≠ .serving := fun _ _ => hp
      obtain ⟨_, _, hserving | ⟨hphase, _⟩⟩ := step_of_not_read c unread
      · exact absurd hserving hp
      · obtain ⟨hlater, hstops⟩ := ih (by rw [hphase]; exact hp)
        have first := stops_step hp event
        refine ⟨hlater.trans hphase, ?_⟩
        rw [run_cons, Trace.stops_append, first, hstops]
        rfl

/-! ### The step in which a connection ends -/

/-- What a step of a serving connection means for its session. -/
inductive Fate (c : Connection σ) (event : Event) : Connection σ × List Effect → Prop
  | on {d : Connection σ} {t : List Effect} (hphase : d.phase = .serving)
      (hstops : Trace.stops t = []) : Fate c event (d, t)
  | stuck {d : Connection σ} {t : List Effect} (hhalts : Halts c event .stuck)
      (hphase : d.phase = .stuck) (hstops : Trace.stops t = []) : Fate c event (d, t)
  /-- The session is stopped, after which there is only the failing of calls. -/
  | ended {error : Option ProtocolError} {d : Connection σ} {t : List Effect}
      (hends : EndsBy c event error) (hstops : Trace.stops t = []) :
      Fate c event ((d.finish error).1, t ++ (d.finish error).2)

theorem not_isOver_of_serving (hp : c.phase = .serving) : c.isOver = false := by
  simp [isOver, hp]

theorem fate_serve (hp : c.phase = .serving) {payload : Bytes} {request : Envelope}
    (hread : Envelope.ofBytes? payload = some request) (hkind : request.kind = .request) :
    Fate c (.arrival (.frame payload))
      ((c.serve request).1, .received (.frame payload) :: (c.serve request).2) := by
  have ran : ∀ {procedure : Procedure} {args : Values} {run : Run σ},
      Trace.stops (.received (.frame payload) ::
        .handled procedure.name args run.outcome :: (c.ran run).2) = [] :=
    fun {_ _ run} => (asking_submit { c with state := run.state } run.requests).stops
  have goesOn : ∀ run : Run σ, (c.ran run).1.phase = .serving :=
    fun run => (phase_ran c run).trans hp
  have served := serves c request
  generalize c.serve request = result at served
  cases served with
  | unknown hfind =>
      exact .ended (t := [.received (.frame payload)]) (.unknown hread hkind hfind) rfl
  | invalid hfind hconform =>
      exact .ended (t := [.received (.frame payload)])
        (.invalid hread hkind hfind hconform) rfl
  | stuck hruns hresponse => exact .stuck (.unreturned hread hkind hruns hresponse) rfl ran
  | @oneway procedure args run _ _ _ _ => exact .on (goesOn run) ran
  | @answered procedure args run response _ _ _ _ =>
      have answered := Trace.view_append Effect.stopped? (.received (.frame payload) ::
        .handled procedure.name args run.outcome :: (c.ran run).2) [.responded response]
      exact .on (goesOn run) (answered.trans (congrArg (· ++ []) ran))
  | unanswered hruns hresponse honeway hrefuse =>
      exact .ended (.unanswered hread hkind hruns hresponse honeway hrefuse) ran

theorem fate_takeCommand (hp : c.phase = .serving) : Fate c .command c.takeCommand := by
  by_cases hq : c.queue = []
  · simp only [takeCommand, hq]
    exact .on hp rfl
  · rcases takeCommand_cases hq with ⟨rest, hq, h⟩ | ⟨call, id, d, htaken, h⟩ | ⟨hbarred, h⟩
    · rw [h]
      exact .ended (t := []) (.closed hq) rfl
    · rw [h]
      simp only [write]
      split
      next => exact .on (htaken.phase.trans hp) rfl
      next fault hrefuse => exact .ended (t := []) (.unsent htaken hrefuse) rfl
    · rw [h]
      exact .stuck (.barred hbarred) rfl rfl

/-- A step goes on, or the connection ends in it for one of the reasons. -/
theorem fate_step (hp : c.phase = .serving) (event : Event) : Fate c event (c.step event) := by
  cases event with
  | arrival arrival =>
      rw [step, if_pos hp, receive]
      cases arrival with
      | closed => exact .ended (t := [.received .closed]) .eof rfl
      | fault fault => exact .ended (t := [.received (.fault fault)]) (.fault fault) rfl
      | frame payload =>
          simp only [arrive]
          cases hread : Envelope.ofBytes? payload with
          | none => exact .ended (t := [.received (.frame payload)]) (.malformed hread) rfl
          | some envelope =>
              simp only
              split
              next hkind => exact fate_serve hp hread hkind
              next =>
                have goesOn := (phase_settle c envelope).trans hp
                exact .on goesOn (asking_settle c envelope).stops
  | command =>
      rw [step, if_pos hp]
      exact fate_takeCommand hp
  | call name args =>
      obtain ⟨_, hframe⟩ := call_frame c name args
      have goesOn : (c.call name args).1.phase = .serving := by rw [hframe]; exact hp
      exact .on goesOn (asking_call c name args).stops
  | close =>
      obtain ⟨_, hframe⟩ := close_frame c
      have goesOn : c.close.1.phase = .serving := by rw [hframe]; exact hp
      exact .on goesOn (asking_close c).stops
  | peersGone =>
      rw [step]
      split <;> exact .on hp rfl
  | farGone => exact .on hp rfl

/-! ### Runs -/

/-- That a session has been stopped because of an error, or without one. -/
structure StoppedOnce (c : Connection σ) (events : List Event) (d : Connection σ)
    (t : List Effect) (error : Option ProtocolError) : Prop where
  /-- The connection was serving until it ended, for a reason that goes with the error. Without an
  error this is the end of the stream, or that a peer has asked for it. -/
  cause : ∃ before event after, events = before ++ event :: after ∧
    (c.run before).1.phase = .serving ∧ EndsBy (c.run before).1 event error ∧
    (error = none ↔ event = .arrival .closed ∨
      event = .command ∧ (c.run before).1.queue.head? = some .close)
  phase : d.phase = .ended error
  /-- There is no other stop. -/
  once : Trace.stops t = [error]
  /-- No handler runs after it. -/
  last : ∀ before after, t = before ++ .stopped error :: after →
    ∀ name args outcome, .handled name args outcome ∉ after

theorem stops_finish (c : Connection σ) (error : Option ProtocolError) :
    Trace.stops (c.finish error).2 = [error] := by
  have failing : ∀ tickets : List Nat, Trace.stops (tickets.map fun ticket =>
      Effect.resolved ticket (.error .connectionClosed)) = [] := by
    intro tickets
    induction tickets with
    | nil => rfl
    | cons ticket rest ih => exact ih
  exact congrArg (error :: ·) (failing c.unresolved)

/-- No handler runs after a stop when nothing is stopped first and no handler runs then. -/
theorem not_handled_after_stop {first tail : List Effect} (hfirst : Trace.stops first = [])
    {error : Option ProtocolError}
    (htail : ∀ before after, tail = before ++ .stopped error :: after →
      ∀ name args outcome, .handled name args outcome ∉ after)
    {before after : List Effect} (hsplit : first ++ tail = before ++ .stopped error :: after)
    (name : String) (args : Values) (outcome : Outcome) : .handled name args outcome ∉ after := by
  rcases split_append hsplit with ⟨more, rfl⟩ | ⟨more, rfl, hmore⟩
  · simp [Trace.stops, Effect.stopped?] at hfirst
  · exact htail more after hmore name args outcome

/-- It does not matter what has happened before, if that was no stop. -/
theorem StoppedOnce.behind {events : List Event} {d : Connection σ} {t : List Effect}
    {error : Option ProtocolError} (h : StoppedOnce c events d t error) {first : List Effect}
    (hfirst : Trace.stops first = []) : StoppedOnce c events d (first ++ t) error where
  cause := h.cause
  phase := h.phase
  once := by
    rw [Trace.stops_append, hfirst]
    exact h.once
  last _ _ hsplit := not_handled_after_stop hfirst h.last hsplit

theorem StoppedOnce.later {event : Event} {events : List Event} {d e : Connection σ}
    {first t : List Effect} {error : Option ProtocolError} (hstep : c.step event = (d, first))
    (hstops : Trace.stops first = []) (h : StoppedOnce d events e t error) :
    StoppedOnce c (event :: events) e (first ++ t) error := by
  obtain ⟨before, last, after, rfl, hcause⟩ := h.cause
  have hrun : (c.run (event :: before)).1 = (d.run before).1 := by rw [run_cons, hstep]
  have behind := h.behind hstops
  exact ⟨⟨event :: before, last, after, rfl, hrun ▸ hcause⟩, behind.phase, behind.once,
    behind.last⟩

/-- The session is stopped in the step in which the connection ends. -/
theorem StoppedOnce.now (hp : c.phase = .serving) {event : Event} {d : Connection σ}
    {first : List Effect} {error : Option ProtocolError} (hends : EndsBy c event error)
    (hstops : Trace.stops first = []) (later : List Event) :
    StoppedOnce c (event :: later) ((d.finish error).1.run later).1
      (first ++ (d.finish error).2 ++ ((d.finish error).1.run later).2) error := by
  have hended : (d.finish error).1.phase ≠ .serving := nofun
  obtain ⟨hphase, hnone⟩ := stops_run hended later
  refine ⟨⟨[], event, later, rfl, hp, hends, hends.eq_none_iff⟩, hphase, ?_, ?_⟩
  · simp only [Trace.stops_append, hstops, stops_finish, hnone]
    rfl
  · intro before after hsplit
    rw [List.append_assoc] at hsplit
    refine not_handled_after_stop hstops ?_ hsplit
    rintro before after htail name args outcome hmem
    have hquiet := (quiet_finish d error).append (quiet_run hended later)
    cases hquiet (.handled name args outcome) (by simp [htail, hmem])

/-- A run goes on, or the session has been stopped once. -/
theorem stoppedOnce_run (hp : c.phase = .serving) (events : List Event) :
    ((c.run events).1.isOver = false ∧ Trace.stops (c.run events).2 = []) ∨
      ∃ error, StoppedOnce c events (c.run events).1 (c.run events).2 error := by
  induction events generalizing c with
  | nil => exact .inl ⟨not_isOver_of_serving hp, rfl⟩
  | cons event rest ih =>
      have fate := fate_step hp event
      rw [run_cons]
      generalize hstep : c.step event = result at fate
      have goesOn : ∀ {first later : List Effect}, Trace.stops first = [] →
          Trace.stops later = [] → Trace.stops (first ++ later) = [] := by
        intro first later hfirst hlater
        rw [Trace.stops_append, hfirst, hlater]
        rfl
      cases fate with
      | @on d first hserving hstops =>
          rcases ih hserving with ⟨hlater, hnone⟩ | ⟨error, h⟩
          · exact .inl ⟨hlater, goesOn hstops hnone⟩
          · exact .inr ⟨error, h.later hstep hstops⟩
      | @stuck d first _ hstuck hstops =>
          have stopped : d.phase ≠ .serving := by rw [hstuck]; nofun
          obtain ⟨hphase, hnone⟩ := stops_run stopped rest
          refine .inl ⟨?_, goesOn hstops hnone⟩
          simp only [isOver, hphase, hstuck]
      | @ended error d first hends hstops => exact .inr ⟨error, .now hp hends hstops rest⟩

end Connection

end DuplexRpc
