import DuplexRpc.Proofs.Connection.Calls
import DuplexRpc.Proofs.Connection.Sequential
import DuplexRpc.Proofs.Definition
import DuplexRpc.Proofs.Endpoint.Stages

/-!
# What crosses the boundary

Values pass between an application and the stream in four places: as the arguments of a
handler, in a response, in a request, and as the result of a call. In each of them the
values are those that the definition declares for the procedure, whatever the far end
sends and whatever the application asks for.
-/

namespace DuplexRpc

/-- What the values of the types of parameters are: strings, and whole numbers in the range of an
integer type. -/
inductive Builtin.Holds : Builtin → Json → Prop
  | string (text : String) : Holds .string (.string text)
  | integer {type : Builtin} {least greatest n : Int}
      {inRange : -(1 <<< 63) ≤ n ∧ n < 1 <<< 64}
      (hrange : type.range? = some (least, greatest)) (hleast : least ≤ n)
      (hgreatest : n ≤ greatest) : Holds type (.number (.integer n inRange))

/-- Whether the names that have values are exactly those of declared parameters, and each value is
of the declared type. -/
structure Values.Typed (v : Values) (params : List Param) : Prop where
  names : ∀ name, (v.find? name).isSome ↔ name ∈ params.map (·.name)
  types : ∀ p ∈ params, ∃ type value, p.type = .builtin type ∧ v.find? p.name = some value ∧
    type.Holds value

theorem Builtin.holds_of_accepts {type : Builtin} (hparam : type.isParamType) {value : Json}
    (h : type.accepts value) : type.Holds value := by
  unfold accepts at h
  split at h
  next text => exact .string text
  next => cases hparam
  next n inRange =>
    split at h
    next least greatest hrange =>
      obtain ⟨hleast, hgreatest⟩ := Bool.and_eq_true_iff.mp h
      exact .integer hrange (of_decide_eq_true hleast) (of_decide_eq_true hgreatest)
    next => cases h
  next => cases h

theorem Values.typed_of_fits {params : List Param} (wf : Param.WellFormed params) {v : Values}
    (h : v.Fits params) : v.Typed params := by
  constructor
  case names =>
    intro name
    rw [Option.isSome_iff_exists, List.mem_map]
    constructor
    · rintro ⟨value, hvalue⟩
      exact h.declared name value hvalue
    · rintro ⟨p, hp, rfl⟩
      obtain ⟨value, hvalue, _⟩ := h.typed p hp
      exact ⟨value, hvalue⟩
  case types =>
    intro p hp
    obtain ⟨type, hparam, htype⟩ := wf.builtin p hp
    obtain ⟨value, hvalue, haccepts⟩ := h.typed p hp
    rw [htype] at haccepts
    exact ⟨type, value, htype, hvalue, type.holds_of_accepts hparam haccepts⟩

theorem typed_of_conform {params : List Param} (wf : Param.WellFormed params)
    {payload : Option Json} {v : Values} (h : conform params payload = .ok v) : v.Typed params :=
  Values.typed_of_fits wf (fits_of_conform wf h)

/-! ### Serving -/

/-- Whether a response is one to the request that was read last: its handler has run since and
nothing else has been read or run, and data of the response are values of the procedure. -/
inductive AnswersLast (service : Service) (side : Side) : List Effect → Envelope → Prop
  | intro {earlier between : List Effect} {payload : Bytes} {request response : Envelope}
      {procedure : Procedure} {args : Values} {outcome : Outcome}
      (hread : Envelope.ofBytes? payload = some request)
      (hfind : (service.procedures side).find? request.procedure = some procedure)
      (hbetween : Trace.Quiet between) (hid : response.callbackId = request.callbackId)
      (hdata : ∀ data, response.data = some data →
        ∃ v : Values, data = v.toJson ∧ v.Typed procedure.rets) :
      AnswersLast service side
        (earlier ++ .received (.frame payload) :: .handled procedure.name args outcome :: between)
        response

/-- Where values go in and out while an end serves. -/
structure ServesTyped (service : Service) (side : Side) (t : List Effect) : Prop where
  /-- A handler is given values of its own procedure, which is one of its side. -/
  handled : ∀ {name args outcome}, .handled name args outcome ∈ t →
    ∃ procedure, (service.procedures side).find? name = some procedure ∧
      args.Typed procedure.args
  /-- A response carries values of the procedure that has been run for it. -/
  responded : ∀ {before response after}, t = before ++ .responded response :: after →
    AnswersLast service side before response

/-- Where values go out and in while an end calls; `side` is the side that is called. -/
structure CallsTyped (service : Service) (side : Side) (t : List Effect) : Prop where
  /-- A request is for a procedure of the far end and carries values of it. -/
  requested : ∀ {ticket request}, .requested ticket request ∈ t →
    ∃ (procedure : Procedure) (v : Values),
      (service.procedures side).find? request.procedure = some procedure ∧
        request.data = some v.toJson ∧ v.Typed procedure.args
  /-- A two-way call that succeeds brings values of the procedure that was called. -/
  resolved : ∀ {ticket name args v}, .called ticket name args ∈ t →
    .resolved ticket (.ok v) ∈ t →
      ∃ procedure, (service.procedures side).find? name = some procedure ∧
        (procedure.oneway = false → v.Typed procedure.rets)

section

variable {service : Service} {side : Side}

theorem AnswersLast.append {before : List Effect} {response : Envelope}
    (h : AnswersLast service side before response) (earlier : List Effect) :
    AnswersLast service side (earlier ++ before) response := by
  cases h with
  | intro hread hfind hbetween hid hdata =>
      rw [← List.append_assoc]
      exact .intro hread hfind hbetween hid hdata

namespace ServesTyped

variable {t u : List Effect}

theorem of_quiet (h : Trace.Quiet t) : ServesTyped service side t where
  handled hmem := by cases h _ hmem
  responded := by
    rintro before response after rfl
    cases h (.responded response) (by simp)

theorem append (h : ServesTyped service side t) (hu : ServesTyped service side u) :
    ServesTyped service side (t ++ u) where
  handled hmem := (List.mem_append.mp hmem).elim h.handled hu.handled
  responded hsplit := by
    rcases split_append hsplit with ⟨more, hearlier⟩ | ⟨more, rfl, hlater⟩
    · exact h.responded hearlier
    · exact (hu.responded hlater).append t

theorem read (arrival : Arrival) : ServesTyped service side [.received arrival] where
  handled hmem := by simp at hmem
  responded := by
    intro before response after hsplit
    have hmem : Effect.responded response ∈ [Effect.received arrival] := by simp [hsplit]
    simp at hmem

theorem ran {procedure : Procedure} {args : Values} (outcome : Outcome)
    (hfind : (service.procedures side).find? procedure.name = some procedure)
    (htyped : args.Typed procedure.args) :
    ServesTyped service side [.handled procedure.name args outcome] where
  handled hmem := by
    obtain ⟨rfl, rfl, rfl⟩ := Effect.handled.inj (List.mem_singleton.mp hmem)
    exact ⟨procedure, hfind, htyped⟩
  responded := by
    intro before response after hsplit
    have hmem : Effect.responded response ∈ [Effect.handled procedure.name args outcome] := by
      simp [hsplit]
    simp at hmem

theorem answered (h : ServesTyped service side t) {response : Envelope}
    (hresponse : AnswersLast service side t response) :
    ServesTyped service side (t ++ [.responded response]) where
  handled hmem := by
    rcases List.mem_append.mp hmem with hmem | hmem
    · exact h.handled hmem
    · simp at hmem
  responded hsplit := by
    rcases split_append hsplit with ⟨more, hearlier⟩ | ⟨more, rfl, hlast⟩
    · exact h.responded hearlier
    · rcases List.append_eq_singleton_iff.mp hlast.symm with ⟨rfl, hlast⟩ | ⟨_, hlast⟩
      · obtain ⟨hsame, rfl⟩ := List.cons.inj hlast
        obtain rfl := Effect.responded.inj hsame
        rwa [List.append_nil]
      · cases hlast

end ServesTyped

end

/-- The data of a response are values of the procedure. -/
theorem typed_of_responseTo {id : CallbackId} {procedure : Procedure} (wf : procedure.WellFormed)
    {outcome : Outcome} {response : Envelope}
    (h : Connection.responseTo id procedure outcome = some response) {data : Json}
    (hdata : response.data = some data) :
    ∃ v : Values, data = v.toJson ∧ v.Typed procedure.rets := by
  unfold Connection.responseTo at h
  split at h
  next =>
    obtain rfl := Option.some.inj h
    split at hdata
    next rets hconform =>
      obtain rfl := Option.some.inj hdata
      exact ⟨rets, rfl, typed_of_conform wf.rets hconform⟩
    next => cases hdata
  next =>
    obtain rfl := Option.some.inj h
    cases hdata
  next => cases h

namespace Connection

variable {σ : Type} {c : Connection σ} {t : List Effect}

/-- What serving a request lets through. -/
theorem servesTyped_serve (wf : c.service.WellFormed) {payload : Bytes} {request : Envelope}
    (hread : Envelope.ofBytes? payload = some request) :
    ServesTyped c.service c.side (.received (.frame payload) :: (c.serve request).2) := by
  have begun : ∀ {procedure args} {run : Run σ}, Runs c request procedure args run →
      ServesTyped c.service c.side ([.received (.frame payload)] ++
        [.handled procedure.name args run.outcome] ++ (c.ran run).2) := by
    intro procedure args run h
    have hfind := wf.name h.find ▸ h.find
    have htyped := typed_of_conform (wf.procedure h.find).args h.conform
    exact ((ServesTyped.read _).append (.ran run.outcome hfind htyped)).append
      (.of_quiet (quiet_ran c run))
  have served := serves c request
  generalize c.serve request = result at served
  cases served with
  | unknown _ => exact (ServesTyped.read _).append (.of_quiet (quiet_finish _ _))
  | invalid _ _ => exact (ServesTyped.read _).append (.of_quiet (quiet_finish _ _))
  | stuck hruns _ => exact begun hruns
  | oneway hruns _ _ => exact begun hruns
  | @answered procedure args run response hruns hresponse _ _ =>
      have hid := (heads_of_responseTo hresponse).2
      have answers : AnswersLast c.service c.side
          ([] ++ .received (.frame payload) :: .handled procedure.name args run.outcome ::
            (c.ran run).2) response :=
        .intro hread hruns.find (quiet_ran c run) hid fun data hdata =>
          typed_of_responseTo (wf.procedure hruns.find) hresponse hdata
      exact (begun hruns).answered answers
  | @unanswered procedure args run response fault hruns _ _ _ =>
      have hended := quiet_finish (c.ran run).1 (some (.transport fault))
      simpa [fail] using (begun hruns).append (.of_quiet hended)

theorem servesTyped_step (wf : c.service.WellFormed) (event : Event) :
    ServesTyped c.service c.side (c.step event).2 := by
  by_cases hread : ∃ arrival, event = .arrival arrival ∧ c.phase = .serving
  · obtain ⟨arrival, rfl, hp⟩ := hread
    have quiet : ∀ {effects}, Trace.Quiet effects →
        ServesTyped c.service c.side (.received arrival :: effects) :=
      fun hquiet => (ServesTyped.read arrival).append (.of_quiet hquiet)
    rw [step, if_pos hp, receive]
    cases arrival with
    | closed => exact quiet (quiet_finish c none)
    | fault fault => exact quiet (quiet_finish c _)
    | frame payload =>
        simp only [arrive]
        split
        next => exact quiet (quiet_finish c _)
        next envelope hread =>
          split
          next => exact servesTyped_serve wf hread
          next => exact quiet (quiet_settle c envelope)
  · have unread : ∀ arrival, event = .arrival arrival → c.phase ≠ .serving :=
      fun arrival he hp => hread ⟨arrival, he, hp⟩
    exact .of_quiet (step_of_not_read c unread).1

/-! ### Calling -/

/-- What is known of the results of calls that have succeeded. -/
def Fulfilled (t : List Effect) : Prop :=
  ∀ {ticket v}, (ticket, .ok v) ∈ Trace.results t →
    ∃ call ∈ Trace.queued t, call.ticket = ticket ∧
      (call.procedure.oneway = false →
        ∃ data, conform call.procedure.rets data = .ok v)

theorem Fulfilled.step (h : Fulfilled t) (accounts : Accounts c t) (event : Event) :
    Fulfilled (t ++ (c.step event).2) := by
  intro ticket v hmem
  rw [Trace.results, Trace.view_append, List.mem_append] at hmem
  rcases hmem with hmem | hmem
  · obtain ⟨call, hcall, hticket, hdata⟩ := h hmem
    exact ⟨call, Trace.mem_view_append_left hcall, hticket, hdata⟩
  · rcases step_cases c event with hmoves | ⟨payload, response, _, _, _, _, hstep⟩
    · have here := (hmoves.resolvedHere _ hmem).mono (List.subset_append_right t _)
      generalize hentry : (ticket, (Except.ok v : Except CallError Values)) = entry at here
      cases here with
      | rejected _ _ => cases (Prod.mk.inj hentry).2
      | closed _ => cases (Prod.mk.inj hentry).2
      | oneway hqueued honeway =>
          refine ⟨_, hqueued, (Prod.mk.inj hentry).1.symm, fun htwo => ?_⟩
          rw [htwo] at honeway
          cases honeway
    · rw [hstep] at hmem
      cases hf : c.pending.find? response.callbackId with
      | none => simp [settle_of_none hf] at hmem
      | some call =>
          have waits := accounts.waiting (accounts.pending.find?_eq_some_iff.mp hf)
          obtain ⟨rfl, hresult⟩ : ticket = call.ticket ∧
              .ok v = resultOf call.procedure response := by
            simpa [settle_of_some hf] using hmem
          refine ⟨call, Trace.mem_view_append_left waits.queued, rfl, fun _ => ?_⟩
          unfold resultOf at hresult
          split at hresult
          next => cases hresult
          next =>
            split at hresult
            next values hconform =>
              obtain rfl := Except.ok.inj hresult
              exact ⟨response.data, hconform⟩
            next => cases hresult

/-- What a call that has been queued was prepared with. -/
theorem Prepared.typed {call : Call} (h : Prepared c.peer t call) (wf : c.service.WellFormed) :
    (c.service.procedures c.side.opposite).find? call.procedure.name = some call.procedure ∧
      call.procedure.WellFormed ∧ call.args.Typed call.procedure.args := by
  obtain ⟨name, args, _, hprepare⟩ := h
  obtain ⟨hfind, hconform⟩ := Peer.eq_of_prepare hprepare
  have hprocedure := wf.procedure hfind
  exact ⟨wf.name hfind ▸ hfind, hprocedure, typed_of_conform hprocedure.args hconform⟩

theorem Accounts.callsTyped (h : Accounts c t) (wf : c.service.WellFormed)
    (fulfilled : Fulfilled t) : CallsTyped c.service c.side.opposite t := by
  constructor
  case requested =>
    intro ticket request hmem
    obtain ⟨call, hcall, id, _, rfl⟩ := h.requested (Trace.mem_view.mpr ⟨_, hmem, rfl⟩)
    obtain ⟨hfind, _, htyped⟩ := (h.prepared call hcall).typed wf
    exact ⟨call.procedure, call.args, hfind, rfl, htyped⟩
  case resolved =>
    intro ticket name args v hcalled hmem
    obtain ⟨call, hcall, rfl, hdata⟩ := fulfilled (Trace.mem_view.mpr ⟨_, hmem, rfl⟩)
    obtain ⟨hfind, hprocedure, _⟩ := (h.prepared call hcall).typed wf
    obtain ⟨other, more, hmade, hprepare⟩ := h.prepared call hcall
    obtain ⟨rfl, rfl⟩ := h.eq_of_called hmade hcalled
    refine ⟨call.procedure, (Peer.eq_of_prepare hprepare).1, fun htwo => ?_⟩
    obtain ⟨data, hconform⟩ := hdata htwo
    exact typed_of_conform hprocedure.rets hconform

/-! ### Every run -/

/-- What every run keeps of the values that pass. -/
structure LetsThrough (service : Service) (side : Side) (c : Connection σ) (t : List Effect) :
    Prop where
  setup : c.service = service ∧ c.side = side
  accounts : Accounts c t
  serves : ServesTyped service side t
  fulfilled : Fulfilled t

theorem LetsThrough.step {service : Service} {side : Side} (h : LetsThrough service side c t)
    (wf : service.WellFormed) (event : Event) :
    LetsThrough service side (c.step event).1 (t ++ (c.step event).2) := by
  obtain ⟨⟨rfl, rfl⟩, accounts, serves, fulfilled⟩ := h
  have fixed := fixed_step c event
  exact ⟨⟨fixed.service, fixed.side⟩, accounts.step event,
    serves.append (servesTyped_step wf event), fulfilled.step accounts event⟩

theorem letsThrough_run (session : Session σ) {service : Service} (wf : service.WellFormed)
    (side : Side) (outlet : Outlet) (state : σ) (events : List Event) :
    LetsThrough service side ((start session service side outlet state).run events).1
      ((start session service side outlet state).run events).2 := by
  have begun : LetsThrough service side (start session service side outlet state) [] :=
    ⟨⟨rfl, rfl⟩, .start .., .of_quiet .nil, nofun⟩
  exact runSteps_trace_invariant Connection.step (P := LetsThrough service side)
    (fun _ _ event hc => hc.step wf event) begun events

end Connection

/-! ### Endpoints -/

/-- What crosses the boundary of an end that has the given side of a service. -/
structure Guarded (service : Service) (side : Side) (t : List Effect) : Prop where
  serves : ServesTyped service side t
  calls : CallsTyped service side.opposite t

/-- The handshake lets no values through. -/
theorem Guarded.greeted {service : Service} {side : Side} {greeting t : List Effect}
    (hgreeting : ∀ effect ∈ greeting, effect.isGreeting) (h : Guarded service side t) :
    Guarded service side (greeting ++ t) := by
  have hquiet : Trace.Quiet greeting := by
    intro effect hmem
    have := hgreeting effect hmem
    cases effect <;> first | rfl | cases this
  have later : ∀ {effect : Effect}, effect.isGreeting = false → effect ∈ greeting ++ t →
      effect ∈ t := by
    intro effect hnot hmem
    refine (List.mem_append.mp hmem).resolve_left fun hmem => ?_
    rw [hgreeting effect hmem] at hnot
    cases hnot
  refine ⟨(ServesTyped.of_quiet hquiet).append h.serves, ?_, ?_⟩
  · intro ticket request hmem
    exact h.calls.requested (later rfl hmem)
  · intro ticket name args v hcalled hresolved
    exact h.calls.resolved (later rfl hcalled) (later rfl hresolved)

namespace Endpoint

variable {σ : Type} {setup : Setup σ}

/-- Only values that the definition declares cross the boundary of an end, whatever it is asked to
do and whatever the far end sends. -/
theorem only_typed_values_pass (setup : Setup σ) {source : Source}
    (hparse : Service.parse source = .ok setup.service) (events : List Event) :
    Guarded setup.service setup.side (life setup events).2 := by
  have silent : Guarded setup.service setup.side [] := ⟨.of_quiet .nil, nofun, nofun⟩
  rcases (stage_life setup events).greeting_or_connected with
    ⟨hgreeting, _⟩ | ⟨before, _, after, greeting, _, _, hgreeting, _, htrace⟩
  · simpa using silent.greeted hgreeting
  · have wf := Service.wellFormed_of_parse hparse
    have through := Connection.letsThrough_run setup.session wf setup.side
      (outletAfter setup before) setup.state after
    obtain ⟨hservice, hside⟩ := through.setup
    have calls := through.accounts.callsTyped (by rw [hservice]; exact wf) through.fulfilled
    rw [hservice, hside] at calls
    rw [htrace]
    exact Guarded.greeted hgreeting ⟨through.serves, calls⟩

/-- A definition with a procedure at either side. -/
def clockSource : Source :=
  .ofBytes (Text.utf8 ("name clock\nserver shift(zone string, hours int8)(hours int8)\n" ++
    "client tick(at uint64)(seen uint8)\n"))

def clockService : Service :=
  ((Service.named "clock").addProcedure
    { side := .server, oneway := false, name := "shift",
      args := [⟨"zone", .builtin .string⟩, ⟨"hours", .builtin .int8⟩],
      rets := [⟨"hours", .builtin .int8⟩], line := 2 }).addProcedure
    { side := .client, oneway := false, name := "tick", args := [⟨"at", .builtin .uint64⟩],
      rets := [⟨"seen", .builtin .uint8⟩], line := 3 }

theorem parse_clockSource : Service.parse clockSource = .ok clockService :=
  eq_ok_of_toOption (by decide +kernel)

def shiftArgs : Values := (Values.empty.insert "zone" (.string "utc")).insert "hours" (.ofInt (-3))

def shiftRets : Values := Values.empty.insert "hours" (.ofInt (-3))

def tickArgs : Values := Values.empty.insert "at" (.ofInt 7)

def tickRets : Values := Values.empty.insert "seen" (.ofInt 255)

/-- A server whose handler makes a call and gives its own arguments back, also the one that is no
return value. -/
def clockSetup : Setup Unit :=
  { session := { handle := fun _ _ _ args =>
      { state := (), requests := [.call "tick" tickArgs], outcome := .returned args } }
    service := clockService, side := .server, config := {}, state := () }

/-- The handshake, a request, the call of its handler and the response to that. -/
def clockEvents : List Event :=
  [.arrival (.frame (Text.utf8 "ango-0.1")),
    .arrival (.frame (Envelope.request "shift" ⟨5⟩ shiftArgs).toBytes), .command,
    .arrival (.frame (Envelope.response .first tickRets).toBytes)]

theorem only_typed_values_pass_clock :
    let t := (life clockSetup clockEvents).2
    Trace.responses t = [.response ⟨5⟩ shiftRets] ∧
      Trace.requests t = [(0, .request "tick" .first tickArgs)] ∧
      (Trace.results t).map (·.2.toOption) = [some tickRets] ∧ Guarded clockService .server t :=
  ⟨by decide +kernel, by decide +kernel, by decide +kernel,
    only_typed_values_pass clockSetup parse_clockSource clockEvents⟩

end Endpoint

end DuplexRpc
