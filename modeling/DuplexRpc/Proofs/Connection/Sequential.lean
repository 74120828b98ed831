import DuplexRpc.Proofs.Connection.Serving

/-!
# Serving one request after another

A desk serves a list of requests and does nothing else. It has no queue, no table of
calls and no stream, and it stops at the first request that cannot be served. A
connection serves exactly as a desk does that is given the requests the connection has
read: the same handlers run on the same states, and the same responses are written.
-/

namespace DuplexRpc

structure HandlerRun where
  procedure : String
  args : Values
  outcome : Outcome

/-- What serving leaves in a trace. -/
inductive Served
  | read (request : Envelope)
  | ran (run : HandlerRun)
  | answered (response : Envelope)

def Arrival.request? : Arrival → Option Envelope
  | .frame payload => (Envelope.ofBytes? payload).filter (·.kind = .request)
  | _ => none

theorem Arrival.request?_eq_some {arrival : Arrival} {request : Envelope}
    (h : arrival.request? = some request) :
    ∃ payload, arrival = .frame payload ∧ Envelope.ofBytes? payload = some request ∧
      request.kind = .request := by
  cases arrival with
  | frame payload =>
      obtain ⟨hread, hkind⟩ := Option.filter_eq_some_iff.mp h
      exact ⟨payload, rfl, hread, by simpa using hkind⟩
  | _ => cases h

theorem Arrival.request?_frame {payload : Bytes} {request : Envelope}
    (hread : Envelope.ofBytes? payload = some request) (hkind : request.kind = .request) :
    (Arrival.frame payload).request? = some request := by
  simp [Arrival.request?, hread, hkind]

/-- How what is no envelope ends a connection that reads it. -/
def Arrival.fatal? : Arrival → Option (Option ProtocolError)
  | .closed => some none
  | .fault reason => some (some (.transport reason))
  | .frame payload =>
    match Envelope.ofBytes? payload with
    | none => some (some .malformedEnvelope)
    | some _ => none

@[simp] def Effect.served? : Effect → Option Served
  | received arrival => arrival.request?.map .read
  | handled procedure args outcome => some (.ran ⟨procedure, args, outcome⟩)
  | responded response => some (.answered response)
  | _ => none

namespace Trace

/-- The requests that were read, the handlers that ran and the responses that were written. -/
abbrev served : List Effect → List Served := view Effect.served?

def requestsRead (t : List Effect) : List Envelope := (arrivals t).filterMap Arrival.request?

end Trace

/-- A response brings data or an error, but not both. -/
structure Envelope.IsAnswer (response : Envelope) : Prop where
  kind : response.kind = .response
  procedure : response.procedure = ""
  exclusive : response.data.isSome = response.error.isNone

/-- How the serving of requests stands. -/
structure Desk (σ : Type) where
  state : σ
  log : List Served
  phase : Phase

namespace Desk

variable {σ : Type}

def fresh (state : σ) : Desk σ := { state, log := [], phase := .serving }

/-- The response to a request under an id, once its handler has ended: the values that conform, or
else the text of what went wrong. -/
def answer? (id : CallbackId) (rets : List Param) : Outcome → Option Envelope
  | .returned values =>
    match conform rets (some values.toJson) with
    | .ok values =>
      some { kind := .response, procedure := "", callbackId := id, data := some values.toJson,
             error := none }
    | .error error =>
      some { kind := .response, procedure := "", callbackId := id, data := none,
             error := some ⟨"errorReturned", error.message⟩ }
  | .failed message =>
    some { kind := .response, procedure := "", callbackId := id, data := none,
           error := some ⟨"errorReturned", message⟩ }
  | .stuck => none

section

variable (session : Session σ) (service : Service) (side : Side)

def serve (desk : Desk σ) (request : Envelope) : Desk σ :=
  match (service.procedures side).find? request.procedure with
  | none =>
    { desk with
      log := desk.log ++ [.read request]
      phase := .ended (some (.unknownProcedure request.procedure)) }
  | some procedure =>
    match conform procedure.args request.data with
    | .error error =>
      { desk with
        log := desk.log ++ [.read request]
        phase := .ended (some (.invalidData procedure.name error)) }
    | .ok args =>
      let run := session.handle { service, side := side.opposite } desk.state procedure args
      let log := desk.log ++ [.read request, .ran ⟨procedure.name, args, run.outcome⟩]
      match answer? request.callbackId procedure.rets run.outcome with
      | none => { state := run.state, log, phase := .stuck }
      | some response =>
        { state := run.state
          log := if procedure.oneway then log else log ++ [.answered response]
          phase := .serving }

/-- Serve a request unless an earlier one has put an end to it. -/
def take (desk : Desk σ) (request : Envelope) : Desk σ :=
  if desk.phase = .serving then desk.serve session service side request else desk

def serveAll (state : σ) (requests : List Envelope) : Desk σ :=
  requests.foldl (take session service side) (fresh state)

end

theorem isAnswer_of_answer? {id : CallbackId} {rets : List Param} {outcome : Outcome}
    {response : Envelope} (h : answer? id rets outcome = some response) : response.IsAnswer := by
  unfold answer? at h
  split at h
  · split at h <;> obtain rfl := Option.some.inj h <;> exact ⟨rfl, rfl, rfl⟩
  · obtain rfl := Option.some.inj h
    exact ⟨rfl, rfl, rfl⟩
  · cases h

section

variable {session : Session σ} {service : Service} {side : Side}

theorem isAnswer_of_take {desk : Desk σ} {request : Envelope}
    (h : ∀ response, .answered response ∈ desk.log → response.IsAnswer) :
    ∀ response, .answered response ∈ (desk.take session service side request).log →
      response.IsAnswer := by
  intro response hmem
  unfold take serve at hmem
  split at hmem
  next =>
    split at hmem
    next => exact h response (by simpa using hmem)
    next =>
      split at hmem
      next => exact h response (by simpa using hmem)
      next =>
        simp only at hmem
        split at hmem
        next => exact h response (by simpa using hmem)
        next answer hanswer =>
          split at hmem
          next => exact h response (by simpa using hmem)
          next =>
            rcases List.mem_append.mp hmem with hmem | hmem
            · exact h response (by simpa using hmem)
            · obtain rfl : response = answer := by simpa using hmem
              exact isAnswer_of_answer? hanswer
  next => exact h response hmem

/-- Every response of a desk is one. -/
theorem isAnswer_of_mem_log {state : σ} {requests : List Envelope} {response : Envelope}
    (hmem : .answered response ∈ (serveAll session service side state requests).log) :
    response.IsAnswer := by
  have kept : ∀ desk : Desk σ, (∀ other, .answered other ∈ desk.log → other.IsAnswer) →
      .answered response ∈ (requests.foldl (take session service side) desk).log →
        response.IsAnswer := by
    clear hmem
    induction requests with
    | nil => exact fun _ h => h response
    | cons request rest ih =>
        intro desk h
        exact ih (desk.take session service side request) (isAnswer_of_take h)
  exact kept (fresh state) nofun hmem

end

theorem answer?_eq (id : CallbackId) (procedure : Procedure) (outcome : Outcome) :
    answer? id procedure.rets outcome = Connection.responseTo id procedure outcome := by
  cases outcome with
  | returned values =>
      simp only [answer?, Connection.responseTo]
      cases conform procedure.rets (some values.toJson) <;> rfl
  | failed message => rfl
  | stuck => rfl

end Desk

namespace Trace

theorem requestsRead_append (t u : List Effect) :
    requestsRead (t ++ u) = requestsRead t ++ requestsRead u := by
  simp [requestsRead]

theorem requestsRead_received {effects : List Effect} {arrival : Arrival}
    (h : ∀ other, .received other ∉ effects) :
    requestsRead (.received arrival :: effects) = arrival.request?.toList := by
  rw [requestsRead, arrivals_received h]
  cases hr : arrival.request? <;> simp [hr]

theorem Quiet.served {effects : List Effect} (h : Quiet effects) : served effects = [] := by
  refine view_eq_nil fun effect hmem => ?_
  have := h effect hmem
  cases effect <;> first | rfl | cases this

end Trace

namespace Connection

variable {σ : Type} {c d : Connection σ}

/-! ### What serving does not notice -/

theorem state_takeCommand (c : Connection σ) : c.takeCommand.1.state = c.state := by
  by_cases hq : c.queue = []
  · simp only [takeCommand, hq]
  · rcases takeCommand_cases hq with ⟨rest, _, h⟩ | ⟨call, id, d, htaken, h⟩ | ⟨_, h⟩
    · rw [h]
      rfl
    · have same : d.state = c.state := by cases htaken <;> rfl
      rw [h, ← same]
      simp only [write]
      split <;> rfl
    · rw [h]

theorem state_settle (c : Connection σ) (response : Envelope) :
    (c.settle response).1.state = c.state := by
  unfold settle
  split <;> rfl

theorem refuse?_closed {outlet : Outlet} {payload : Bytes} {fault : TransportFault}
    (h : outlet.refuse? payload = some fault) :
    Outlet.refuse? { outlet with isOpen := false } payload = some fault := by
  unfold Outlet.refuse? at h ⊢
  split at h
  next hlimit => rwa [if_pos hlimit]
  next hlimit =>
    rw [if_neg hlimit]
    split at h
    · cases h
    · exact h

/-- A step that does not read. -/
theorem step_of_not_read (c : Connection σ) {event : Event}
    (h : ∀ arrival, event = .arrival arrival → c.phase ≠ .serving) :
    Trace.Quiet (c.step event).2 ∧ (c.step event).1.state = c.state ∧
      (c.phase = .serving ∨ (c.step event).1.phase = c.phase ∧ ∀ {payload fault},
        c.outlet.refuse? payload = some fault →
          (c.step event).1.outlet.refuse? payload = some fault) := by
  cases event with
  | arrival arrival =>
      rw [step, if_neg (h arrival rfl)]
      exact ⟨.nil, rfl, .inr ⟨rfl, id⟩⟩
  | command =>
      rw [step]
      split
      next hp => exact ⟨quiet_takeCommand c, state_takeCommand c, .inl hp⟩
      next => exact ⟨.nil, rfl, .inr ⟨rfl, id⟩⟩
  | call name args =>
      refine ⟨quiet_call c name args, ?_⟩
      obtain ⟨_, hframe⟩ := call_frame c name args
      rw [step, hframe]
      exact ⟨rfl, .inr ⟨rfl, id⟩⟩
  | close =>
      refine ⟨quiet_close c, ?_⟩
      obtain ⟨_, hframe⟩ := close_frame c
      rw [step, hframe]
      exact ⟨rfl, .inr ⟨rfl, id⟩⟩
  | peersGone =>
      simp only [step]
      split <;> exact ⟨.nil, rfl, .inr ⟨rfl, id⟩⟩
  | farGone => exact ⟨.nil, rfl, .inr ⟨rfl, refuse?_closed⟩⟩

/-! ### Serving as a desk does -/

/-- A connection has served what it has read as a desk does. Only the last response can be missing
in its trace, because it could not be written. -/
structure ServesAs (desk : Desk σ) (c : Connection σ) (t : List Effect) : Prop where
  state : c.state = desk.state
  log : Trace.served t = desk.log ∨ ∃ response fault, desk.log = Trace.served t ++
    [.answered response] ∧ c.outlet.refuse? response.toBytes = some fault ∧
      c.phase = .ended (some (.transport fault))
  /-- Where the desk stops, the connection stops, and with the same error. -/
  verdict : desk.phase ≠ .serving → c.phase = desk.phase
  /-- What is no envelope ends the connection, with an error unless it is the end of the stream. -/
  fatal : ∀ {arrival error}, .received arrival ∈ t → arrival.fatal? = some error →
    c.phase = .ended error

variable {desk : Desk σ} {t effects : List Effect}

/-- The desk runs the handler that the connection runs. -/
theorem Runs.serve_eq {request : Envelope} {procedure : Procedure} {args : Values} {run : Run σ}
    (h : Runs c request procedure args run) (hstate : c.state = desk.state) :
    desk.serve c.session c.service c.side request =
      match responseTo request.callbackId procedure run.outcome with
      | none =>
        { state := run.state
          log := desk.log ++ [.read request, .ran ⟨procedure.name, args, run.outcome⟩]
          phase := .stuck }
      | some response =>
        { state := run.state
          log := desk.log ++ .read request :: .ran ⟨procedure.name, args, run.outcome⟩ ::
            if procedure.oneway then [] else [.answered response]
          phase := .serving } := by
  have hrun : c.session.handle { service := c.service, side := c.side.opposite } desk.state
      procedure args = run := hstate ▸ h.handle
  simp only [Desk.serve, h.find, h.conform, hrun, Desk.answer?_eq]
  cases responseTo request.callbackId procedure run.outcome with
  | none => rfl
  | some response => cases procedure.oneway <;> simp

namespace ServesAs

theorem fresh (session : Session σ) (service : Service) (side : Side) (outlet : Outlet)
    (state : σ) : ServesAs (.fresh state) (start session service side outlet state) [] where
  state := rfl
  log := .inl rfl
  verdict h := absurd rfl h
  fatal := nofun

theorem log_of_serving (h : ServesAs desk c t) (hp : c.phase = .serving) :
    Trace.served t = desk.log := by
  rcases h.log with hlog | ⟨_, _, _, _, hended⟩
  · exact hlog
  · rw [hp] at hended
    cases hended

theorem phase_of_serving (h : ServesAs desk c t) (hp : c.phase = .serving) :
    desk.phase = .serving := by
  by_cases hd : desk.phase = .serving
  · exact hd
  · rw [← h.verdict hd, hp]

theorem fatal?_of_serving (h : ServesAs desk c t) (hp : c.phase = .serving) {arrival : Arrival}
    (hmem : .received arrival ∈ t) : arrival.fatal? = none := by
  cases hfatal : arrival.fatal? with
  | none => rfl
  | some error =>
      have hended := h.fatal hmem hfatal
      rw [hp] at hended
      cases hended

/-- A serving connection does something, but reads no request. -/
theorem idle (h : ServesAs desk c t) (hp : c.phase = .serving)
    (hserved : Trace.served effects = []) (hstate : d.state = c.state)
    (hfatal : ∀ {arrival error}, .received arrival ∈ effects → arrival.fatal? = some error →
      d.phase = .ended error) :
    ServesAs desk d (t ++ effects) where
  state := hstate.trans h.state
  log := .inl (by simpa [hserved] using h.log_of_serving hp)
  verdict hd := absurd (h.phase_of_serving hp) hd
  fatal := by
    intro arrival error hmem hends
    rcases List.mem_append.mp hmem with hmem | hmem
    · rw [h.fatal?_of_serving hp hmem] at hends
      cases hends
    · exact hfatal hmem hends

/-- What happens to a connection when it does not read. -/
theorem quiet (h : ServesAs desk c t) (hquiet : Trace.Quiet effects) (hstate : d.state = c.state)
    (hphase : c.phase = .serving ∨ d.phase = c.phase ∧ ∀ {payload fault},
      c.outlet.refuse? payload = some fault → d.outlet.refuse? payload = some fault) :
    ServesAs desk d (t ++ effects) := by
  have unread : ∀ {arrival}, .received arrival ∈ effects → False := by
    intro arrival hmem
    have := hquiet _ hmem
    cases this
  rcases hphase with hp | ⟨hp, hrefuse⟩
  · exact h.idle hp hquiet.served hstate fun hmem => (unread hmem).elim
  · refine ⟨hstate.trans h.state, ?_, fun hd => hp.trans (h.verdict hd), ?_⟩
    · rcases h.log with hlog | ⟨response, fault, hlog, hfault, hended⟩
      · exact .inl (by simpa [hquiet.served] using hlog)
      · exact .inr ⟨response, fault, by simpa [hquiet.served] using hlog, hrefuse hfault,
          hp.trans hended⟩
    · intro arrival error hmem hends
      rcases List.mem_append.mp hmem with hmem | hmem
      · exact hp.trans (h.fatal hmem hends)
      · exact (unread hmem).elim

theorem state_ran (c : Connection σ) (run : Run σ) : (c.ran run).1.state = run.state := by
  obtain ⟨_, _, h⟩ := ran_frame c run
  rw [h]

/-- A request is served as the desk serves it. -/
theorem serve (h : ServesAs desk c t) (hp : c.phase = .serving) {payload : Bytes}
    {request : Envelope} (hread : Envelope.ofBytes? payload = some request)
    (hkind : request.kind = .request) :
    ServesAs (desk.take c.session c.service c.side request) (c.serve request).1
      (t ++ .received (.frame payload) :: (c.serve request).2) := by
  have hlog := h.log_of_serving hp
  have hfirst := Arrival.request?_frame hread hkind
  have hfatal : ∀ {arrival error},
      .received arrival ∈ t ++ .received (.frame payload) :: (c.serve request).2 →
        arrival.fatal? = some error → (c.serve request).1.phase = .ended error := by
    intro arrival error hmem hends
    rcases List.mem_append.mp hmem with hmem | hmem
    · rw [h.fatal?_of_serving hp hmem] at hends
      cases hends
    · rcases List.mem_cons.mp hmem with heq | hmem
      · obtain rfl := Effect.received.inj heq
        simp [Arrival.fatal?, hread] at hends
      · exact absurd hmem (not_received_serve c request)
  have served := serves c request
  rw [Desk.take, if_pos (h.phase_of_serving hp)]
  generalize c.serve request = result at served hfatal
  cases served with
  | unknown hfind =>
      simp only [Desk.serve, hfind]
      refine ⟨h.state, .inl ?_, fun _ => rfl, hfatal⟩
      simp [hfirst, hlog, fail, (quiet_finish c _).served]
  | invalid hfind hconform =>
      simp only [Desk.serve, hfind, hconform]
      refine ⟨h.state, .inl ?_, fun _ => rfl, hfatal⟩
      simp [hfirst, hlog, fail, (quiet_finish c _).served]
  | @stuck procedure args run hruns hr =>
      simp only [hruns.serve_eq h.state, hr]
      refine ⟨state_ran c run, .inl ?_, fun _ => rfl, hfatal⟩
      simp [hfirst, hlog, (quiet_ran c run).served]
  | @oneway procedure args run response hruns hr ho =>
      simp only [hruns.serve_eq h.state, hr]
      refine ⟨state_ran c run, .inl ?_, fun hd => absurd rfl hd, hfatal⟩
      simp [ho, hfirst, hlog, (quiet_ran c run).served]
  | @answered procedure args run response hruns hr ho _ =>
      simp only [hruns.serve_eq h.state, hr]
      refine ⟨state_ran c run, .inl ?_, fun hd => absurd rfl hd, hfatal⟩
      simp [ho, hfirst, hlog, (quiet_ran c run).served]
  | @unanswered procedure args run response fault hruns hr ho hrefuse =>
      simp only [hruns.serve_eq h.state, hr]
      rw [← outlet_ran c run] at hrefuse
      refine ⟨state_ran c run, .inr ⟨response, fault, ?_, hrefuse, rfl⟩, fun hd => absurd rfl hd,
        hfatal⟩
      simp [ho, hfirst, hlog, (quiet_ran c run).served, fail, (quiet_finish _ _).served]

/-- What is read that is no request ends the connection or is of no concern to serving. -/
theorem arrive (h : ServesAs desk c t) (hp : c.phase = .serving) {arrival : Arrival}
    (hrequest : arrival.request? = none) :
    ServesAs desk (c.arrive arrival).1 (t ++ .received arrival :: (c.arrive arrival).2) := by
  have idle : ∀ {result : Connection σ × List Effect}, c.arrive arrival = result →
      Trace.Quiet result.2 → result.1.state = c.state →
      (∀ {error}, arrival.fatal? = some error → result.1.phase = .ended error) →
      ServesAs desk (c.arrive arrival).1 (t ++ .received arrival :: (c.arrive arrival).2) := by
    rintro result rfl hquiet hstate hends
    refine h.idle hp ?_ hstate fun hmem hfatal => ?_
    · simp [hquiet.served, hrequest]
    · rcases List.mem_cons.mp hmem with heq | hmem
      · obtain rfl := Effect.received.inj heq
        exact hends hfatal
      · exact absurd hmem hquiet.not_received
  cases arrival with
  | closed =>
      refine idle rfl (quiet_finish _ _) rfl ?_
      rintro error ⟨⟩
      rfl
  | fault fault =>
      refine idle rfl (quiet_finish _ _) rfl ?_
      rintro error ⟨⟩
      rfl
  | frame payload =>
      cases hread : Envelope.ofBytes? payload with
      | none =>
          have hresult : c.arrive (.frame payload) = c.fail .malformedEnvelope := by
            simp only [Connection.arrive, hread]
          refine idle hresult (quiet_finish _ _) rfl fun hfatal => ?_
          simp only [Arrival.fatal?, hread] at hfatal
          obtain rfl := Option.some.inj hfatal
          rfl
      | some envelope =>
          have hkind : envelope.kind = .response := by
            cases hkind : envelope.kind with
            | request =>
                rw [Arrival.request?_frame hread hkind] at hrequest
                cases hrequest
            | response => rfl
          have hresult : c.arrive (.frame payload) = c.settle envelope := by
            simp only [Connection.arrive, hread, hkind]
          refine idle hresult (quiet_settle _ _) (state_settle c envelope) ?_
          simp [Arrival.fatal?, hread]

end ServesAs

section

variable (session : Session σ) (service : Service) (side : Side) (state : σ)

/-- The desk that has been given the requests read so far. -/
abbrev deskOf (t : List Effect) : Desk σ :=
  Desk.serveAll session service side state (Trace.requestsRead t)

theorem deskOf_append (t u : List Effect) : deskOf session service side state (t ++ u) =
    (Trace.requestsRead u).foldl (Desk.take session service side)
      (deskOf session service side state t) := by
  rw [deskOf, Desk.serveAll, Trace.requestsRead_append, List.foldl_append]
  rfl

end

/-- What a run keeps: the connection is the one that was started, and serves as the desk does. -/
structure Serving (session : Session σ) (service : Service) (side : Side) (state : σ)
    (c : Connection σ) (t : List Effect) : Prop where
  setup : c.session = session ∧ c.service = service ∧ c.side = side
  desk : ServesAs (deskOf session service side state t) c t

theorem Serving.step {session : Session σ} {service : Service} {side : Side} {state : σ}
    (h : Serving session service side state c t) (event : Event) :
    Serving session service side state (c.step event).1 (t ++ (c.step event).2) := by
  obtain ⟨⟨rfl, rfl, rfl⟩, hdesk⟩ := h
  have fixed := fixed_step c event
  refine ⟨⟨fixed.session, fixed.service, fixed.side⟩, ?_⟩
  by_cases hread : ∃ arrival, event = .arrival arrival ∧ c.phase = .serving
  · obtain ⟨arrival, rfl, hp⟩ := hread
    rw [Connection.step, if_pos hp, receive, deskOf_append,
      Trace.requestsRead_received fun other => not_received_arrive c arrival]
    cases hrequest : arrival.request? with
    | none => exact hdesk.arrive hp hrequest
    | some request =>
        obtain ⟨payload, rfl, hread, hkind⟩ := Arrival.request?_eq_some hrequest
        have hresult : c.arrive (.frame payload) = c.serve request := by
          simp only [Connection.arrive, hread, hkind]
        simp only [hresult]
        exact hdesk.serve hp hread hkind
  · have unread : ∀ arrival, event = .arrival arrival → c.phase ≠ .serving :=
      fun arrival he hp => hread ⟨arrival, he, hp⟩
    obtain ⟨hquiet, hstate, hphase⟩ := step_of_not_read c unread
    rw [deskOf_append, Trace.requestsRead, Trace.arrivals_eq_nil fun _ => hquiet.not_received]
    exact hdesk.quiet hquiet hstate hphase

theorem Serving.run {session : Session σ} {service : Service} {side : Side} {state : σ}
    (h : Serving session service side state c t) (events : List Event) :
    Serving session service side state (c.run events).1 (t ++ (c.run events).2) :=
  runSteps_trace_invariant Connection.step (P := Serving session service side state)
    (fun _ _ event hc => hc.step event) h events

/-! ### The end of serving -/

theorem quiet_run (hp : c.phase ≠ .serving) (events : List Event) :
    Trace.Quiet (c.run events).2 := by
  induction events generalizing c with
  | nil => exact .nil
  | cons event rest ih =>
      obtain ⟨hquiet, _, hphase⟩ := step_of_not_read c fun _ _ => hp
      rcases hphase with hserving | ⟨hphase, _⟩
      · exact absurd hserving hp
      · rw [← hphase] at hp
        exact hquiet.append (ih hp)

theorem not_received_tail_step (c : Connection σ) (event : Event) (arrival : Arrival) :
    .received arrival ∉ (c.step event).2.tail := by
  by_cases hread : ∃ arrival, event = .arrival arrival ∧ c.phase = .serving
  · obtain ⟨other, rfl, hp⟩ := hread
    rw [step, if_pos hp]
    exact not_received_arrive c other
  · have unread : ∀ arrival, event = .arrival arrival → c.phase ≠ .serving :=
      fun arrival he hp => hread ⟨arrival, he, hp⟩
    exact fun hmem => (step_of_not_read c unread).1.not_received (List.mem_of_mem_tail hmem)

end Connection

end DuplexRpc
