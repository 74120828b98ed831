import DuplexRpc.Proofs.Connection.Calls
import DuplexRpc.Proofs.Connection.Sequential
import DuplexRpc.Proofs.Definition

/-!
# Lanes

Two connections that face each other make two lanes: on each, one of them calls and the
other one serves. A lane is described by the calls that have been served, in order, and
those whose requests are under way. What each end has in its trace, its queue and its
table, and what is in the channels between them, follows from these two lists.
-/

namespace DuplexRpc

/-! ### Kinds of envelopes -/

namespace Envelope

def isRequest (e : Envelope) : Bool := e.kind = .request

def isResponse (e : Envelope) : Bool := e.kind = .response

end Envelope

/-- After the handshake only envelopes are written, each of the kind as which it is written. -/
def Effect.Kinded : Effect → Prop
  | responded response => response.kind = .response
  | requested _ request => request.kind = .request
  | greeted _ | opened | refused _ => False
  | _ => True

namespace Trace

def Kinded (t : List Effect) : Prop := ∀ effect ∈ t, effect.Kinded

theorem Kinded.nil : Kinded [] := nofun

theorem Kinded.cons {effect : Effect} {t : List Effect} (he : effect.Kinded) (h : Kinded t) :
    Kinded (effect :: t) := by
  intro other hmem
  rcases List.mem_cons.mp hmem with rfl | hmem
  · exact he
  · exact h other hmem

theorem Kinded.append {t u : List Effect} (h : Kinded t) (hu : Kinded u) : Kinded (t ++ u) := by
  intro effect hmem
  rcases List.mem_append.mp hmem with hmem | hmem
  · exact h effect hmem
  · exact hu effect hmem

theorem Kinded.filter_isRequest {t : List Effect} (h : Kinded t) :
    (envelopes t).filter Envelope.isRequest = (requests t).map (·.2) := by
  rw [filter_view, map_view]
  refine view_congr fun effect hmem => ?_
  have kinded := h effect hmem
  cases effect with
  | requested ticket request =>
      have hkind : request.kind = .request := kinded
      simp [Envelope.isRequest, hkind]
  | responded response =>
      have hkind : response.kind = .response := kinded
      simp [Envelope.isRequest, hkind]
  | _ => rfl

theorem Kinded.filter_isResponse {t : List Effect} (h : Kinded t) :
    (envelopes t).filter Envelope.isResponse = responses t := by
  rw [filter_view]
  refine view_congr fun effect hmem => ?_
  have kinded := h effect hmem
  cases effect with
  | requested ticket request =>
      have hkind : request.kind = .request := kinded
      simp [Envelope.isResponse, hkind]
  | responded response =>
      have hkind : response.kind = .response := kinded
      simp [Envelope.isResponse, hkind]
  | _ => rfl

end Trace

namespace Connection

variable {σ : Type} {c d : Connection σ}

theorem kinded_finish (c : Connection σ) (error : Option ProtocolError) :
    Trace.Kinded (c.finish error).2 := by
  refine .cons trivial fun effect hmem => ?_
  obtain ⟨ticket, _, rfl⟩ := List.mem_map.mp hmem
  trivial

theorem Move.kinded {effects : List Effect} (h : Move c effects d) : Trace.Kinded effects := by
  cases h with
  | aside _ _ _ hserving hkind =>
      intro effect hmem
      have hserves := hserving effect hmem
      cases effect with
      | responded response => exact hkind response (Trace.mem_view.mpr ⟨_, hmem, rfl⟩)
      | _ => trivial
  | stuck _ => exact .nil
  | rejected _ => exact .cons trivial (.cons trivial .nil)
  | unheard _ _ => exact .cons trivial (.cons trivial .nil)
  | queued _ _ _ =>
      refine .cons trivial (.cons trivial ?_)
      split
      · exact .cons trivial .nil
      · exact .nil
  | closing _ => exact .cons trivial .nil
  | takeClose _ => exact .nil
  | sent _ => exact .cons rfl .nil
  | unsent _ _ => exact kinded_finish _ _
  | ended _ => exact kinded_finish _ _

theorem Moves.kinded {effects : List Effect} (h : Moves c effects d) : Trace.Kinded effects := by
  induction h with
  | refl => exact .nil
  | cons hmove _ ih => exact hmove.kinded.append ih

theorem kinded_settle (c : Connection σ) (response : Envelope) :
    Trace.Kinded (c.settle response).2 := by
  unfold settle
  split
  · exact .nil
  · exact .cons trivial .nil

theorem kinded_step (c : Connection σ) (event : Event) : Trace.Kinded (c.step event).2 := by
  rcases step_cases c event with hmoves | ⟨payload, response, _, _, _, _, hstep⟩
  · exact hmoves.kinded
  · rw [hstep]
    exact .cons trivial (kinded_settle c response)

theorem kinded_run (c : Connection σ) (events : List Event) : Trace.Kinded (c.run events).2 :=
  runSteps_trace_invariant Connection.step (P := fun _ t => Trace.Kinded t)
    (fun c _ event h => h.append (kinded_step c event)) .nil events

end Connection

/-! ### What serving begins with -/

/-- A request that is read, or the handler that then runs. -/
@[simp] def Effect.started? : Effect → Option Served
  | received arrival => arrival.request?.map .read
  | handled procedure args outcome => some (.ran ⟨procedure, args, outcome⟩)
  | _ => none

/-- The requests that were read and the handlers that ran. -/
abbrev Trace.started : List Effect → List Served := view Effect.started?

theorem Trace.Quiet.started {effects : List Effect} (h : Quiet effects) : started effects = [] := by
  refine view_eq_nil fun effect hmem => ?_
  have := h effect hmem
  cases effect <;> first | rfl | cases this

/-! ### The two lists -/

structure Sent where
  call : Call
  id : CallbackId

structure Exchange extends Sent where
  outcome : Outcome

namespace Sent

def request (s : Sent) : Envelope := .request s.call.procedure.name s.id s.call.args

/-- What the trace of the caller shows of the request. -/
def entry (s : Sent) : Nat × Envelope := (s.call.ticket, s.request)

/-- What the table of the caller holds as long as the call waits. -/
def waiter (s : Sent) : CallbackId × Call := (s.id, s.call)

def isTwoWay (s : Sent) : Bool := !s.call.procedure.oneway

end Sent

namespace Exchange

def run (x : Exchange) : HandlerRun := ⟨x.call.procedure.name, x.call.args, x.outcome⟩

/-- What the trace of the end that serves shows of the call: that its request is read, and then
the run. -/
def start (x : Exchange) : List Served := [.read x.request, .ran x.run]

/-- The response to a two-way call, unless its handler never returns. -/
def response? (x : Exchange) : Option Envelope :=
  Connection.responseTo x.id x.call.procedure x.outcome

end Exchange

/-! ### Calls that can be served -/

namespace Connection

variable {σ : Type} {c d : Connection σ}

/-- A connection that has not ended because of what it has read. -/
def IsFair (c : Connection σ) : Prop :=
  ∀ error, c.phase = .ended (some error) → ∃ fault, error = .transport fault

/-- A call that a connection can serve when it reads its request. -/
structure Expected (c : Connection σ) (call : Call) : Prop where
  find : (c.service.procedures c.side).find? call.procedure.name = some call.procedure
  wellFormed : call.procedure.WellFormed
  fits : call.args.Fits call.procedure.args

/-- What serving the request of a call comes to. -/
theorem serve_expected (hp : c.phase = .serving) {s : Sent} (h : Expected c s.call) :
    (c.serve s.request).1.IsFair ∧ ∃ outcome,
      Trace.started (c.serve s.request).2 = [.ran (Exchange.run ⟨s, outcome⟩)] ∧
      ((Trace.responses (c.serve s.request).2 = [] ∧
          ((c.serve s.request).1.phase = .serving → s.isTwoWay = false)) ∨
        ∃ response, Exchange.response? ⟨s, outcome⟩ = some response ∧ s.isTwoWay = true ∧
          Trace.responses (c.serve s.request).2 = [response]) := by
  have hconform := conform_toJson h.wellFormed.args h.fits
  have served := serves c s.request
  generalize c.serve s.request = result at served
  have same : ∀ {procedure : Procedure} {args : Values} {run : Run σ},
      Runs c s.request procedure args run →
        procedure = s.call.procedure ∧ args = s.call.args := by
    intro procedure args run hruns
    obtain rfl : s.call.procedure = procedure := Option.some.inj (h.find.symm.trans hruns.find)
    exact ⟨rfl, Except.ok.inj (hruns.conform.symm.trans hconform)⟩
  cases served with
  | unknown hfind =>
      rw [show s.request.procedure = s.call.procedure.name from rfl, h.find] at hfind
      cases hfind
  | invalid hfind hfails =>
      obtain rfl := Option.some.inj (h.find.symm.trans hfind)
      rw [show s.request.data = some s.call.args.toJson from rfl, hconform] at hfails
      cases hfails
  | @stuck procedure args run hruns hr =>
      obtain ⟨rfl, rfl⟩ := same hruns
      refine ⟨nofun, run.outcome, ?_, .inl ⟨?_, nofun⟩⟩
      · simp [(quiet_ran c run).started, Exchange.run]
      · simp [(quiet_ran c run).responses]
  | @oneway procedure args run response hruns hr ho =>
      obtain ⟨rfl, rfl⟩ := same hruns
      refine ⟨?_, run.outcome, ?_, .inl ⟨?_, fun _ => by simp [Sent.isTwoWay, ho]⟩⟩
      · simp [IsFair, phase_ran, hp]
      · simp [(quiet_ran c run).started, Exchange.run]
      · simp [(quiet_ran c run).responses]
  | @answered procedure args run response hruns hr ho _ =>
      obtain ⟨rfl, rfl⟩ := same hruns
      refine ⟨?_, run.outcome, ?_, .inr ⟨response, hr, by simp [Sent.isTwoWay, ho], ?_⟩⟩
      · simp [IsFair, phase_ran, hp]
      · simp [(quiet_ran c run).started, Exchange.run]
      · simp [(quiet_ran c run).responses]
  | @unanswered procedure args run response fault hruns hr ho _ =>
      obtain ⟨rfl, rfl⟩ := same hruns
      have ended := quiet_finish (c.ran run).1 (some (.transport fault))
      refine ⟨?_, run.outcome, ?_, .inl ⟨?_, nofun⟩⟩
      · rintro error ⟨⟩
        exact ⟨fault, rfl⟩
      · simp [fail, (quiet_ran c run).started, ended.started, Exchange.run]
      · simp [fail, (quiet_ran c run).responses, ended.responses]

end Connection

/-! ### The lane -/

/-- A lane on which `a` calls and `b` serves. The channels `ab` and `ba` hold what is under way
in either direction, also what belongs to the other lane. -/
structure LaneOf {σ τ : Type} (a : Connection σ) (b : Connection τ) (ta tb : List Effect)
    (ab ba : List Envelope) (served : List Exchange) (underway : List Sent) : Prop where
  requests : Trace.requests ta = (served.map (·.toSent) ++ underway).map Sent.entry
  started : Trace.started tb = served.flatMap Exchange.start
  order : ∃ rest, Trace.queued ta = (served.map (·.toSent) ++ underway).map (·.call) ++ rest ∧
    (a.isOver = false → a.calls = rest)
  inFlight : b.phase = .serving → ab.filter Envelope.isRequest = underway.map Sent.request
  /-- Responses come back in the order of the calls. One is lost only if `b` has come to an end. -/
  answers : a.isOver = false → ∃ settled answered lost,
    served.filter (·.isTwoWay) = settled ++ answered ++ lost ∧
    (ba.filter Envelope.isResponse).map some = answered.map Exchange.response? ∧
    a.pending.waiting.reverse =
      ((answered ++ lost).map (·.toSent) ++ underway.filter Sent.isTwoWay).map Sent.waiter ∧
    (b.phase = .serving → lost = [])
  results : ∀ entry ∈ Trace.results ta, Connection.ResolvedHere a.peer ta entry ∨
    ∃ x ∈ served, x.isTwoWay = true ∧ ∃ response, x.response? = some response ∧
      entry = (x.call.ticket, Connection.resultOf x.call.procedure response)

namespace LaneOf

open Connection

variable {σ τ : Type} {a a' : Connection σ} {b b' : Connection τ} {ta tb effects : List Effect}
variable {ab ab' ba ba' : List Envelope} {served : List Exchange} {underway : List Sent}

theorem start (hqueue : a.queue = []) (hwaiting : a.pending.waiting = []) :
    LaneOf a b [] [] [] [] [] [] where
  requests := rfl
  started := rfl
  order := ⟨[], rfl, fun _ => by simp [calls, hqueue]⟩
  inFlight _ := rfl
  answers _ := ⟨[], [], [], rfl, rfl, by simp [hwaiting], fun _ => rfl⟩
  results := nofun

/-! ### The end that calls -/

/-- As long as it goes on, the caller has taken from its channel only what it has settled. -/
theorem take (h : LaneOf a b ta tb ab ba served underway)
    (hba : a.isOver = false →
      ba'.filter Envelope.isResponse = ba.filter Envelope.isResponse) :
    LaneOf a b ta tb ab ba' served underway where
  requests := h.requests
  started := h.started
  order := h.order
  inFlight := h.inFlight
  answers hover := by
    rw [hba hover]
    exact h.answers hover
  results := h.results

/-- The caller does something but write a request. -/
theorem caller (h : LaneOf a b ta tb ab ba served underway) (hkinded : Trace.Kinded effects)
    (hrequests : Trace.requests effects = []) (hpeer : a'.peer = a.peer)
    (hgoes : a'.isOver = false → a.isOver = false ∧
      a'.calls = a.calls ++ Trace.queued effects ∧ a'.pending = a.pending)
    (hresults : ∀ entry ∈ Trace.results effects, ResolvedHere a.peer effects entry) :
    LaneOf a' b (ta ++ effects) tb (ab ++ Trace.envelopes effects) ba served underway where
  requests := by simpa [hrequests] using h.requests
  started := h.started
  order := by
    obtain ⟨rest, hqueued, hrest⟩ := h.order
    refine ⟨rest ++ Trace.queued effects, by simp [hqueued], fun hover => ?_⟩
    obtain ⟨hover, hcalls, _⟩ := hgoes hover
    rw [hcalls, hrest hover]
  inFlight hp := by
    rw [List.filter_append, hkinded.filter_isRequest, hrequests, List.map_nil, List.append_nil]
    exact h.inFlight hp
  answers hover := by
    obtain ⟨hover, _, hpending⟩ := hgoes hover
    rw [hpending]
    exact h.answers hover
  results entry hmem := by
    rw [Trace.results, Trace.view_append, List.mem_append] at hmem
    rw [hpeer]
    rcases hmem with hmem | hmem
    · exact (h.results entry hmem).imp_left (·.mono (List.subset_append_left _ _))
    · exact .inl ((hresults entry hmem).mono (List.subset_append_right _ _))

/-- The caller writes the request of its next call. -/
theorem sent (h : LaneOf a b ta tb ab ba served underway) (hover : a.isOver = false)
    {call : Call} {id : CallbackId} (htaken : Taken a call id a') :
    LaneOf a' b
      (ta ++ [.requested call.ticket (.request call.procedure.name id call.args)]) tb
      (ab ++ [.request call.procedure.name id call.args]) ba served
      (underway ++ [⟨call, id⟩]) where
  requests := by simp [h.requests, Sent.entry, Sent.request]
  started := h.started
  order := by
    obtain ⟨rest, hqueued, hrest⟩ := h.order
    have hcalls := htaken.calls
    rw [hrest hover] at hcalls
    exact ⟨a'.calls, by simp [hqueued, hcalls], fun _ => rfl⟩
  inFlight hp := by
    rw [List.filter_append, h.inFlight hp]
    simp [Envelope.isRequest, Envelope.request, Sent.request]
  answers _ := by
    obtain ⟨settled, answered, lost, hserved, hresponses, hwaiting, hlost⟩ := h.answers hover
    refine ⟨settled, answered, lost, hserved, hresponses, ?_, hlost⟩
    cases htaken with
    | oneway _ ho => simp [hwaiting, Sent.isTwoWay, ho]
    | twoWay _ ho hr =>
        obtain ⟨rfl, _⟩ := PendingCalls.eq_of_register? hr
        simp [hwaiting, Sent.isTwoWay, ho, Sent.waiter]
  results entry hmem := by
    rw [htaken.fixed.peer]
    exact (h.results entry (by simpa using hmem)).imp_left (·.mono (List.subset_append_left _ _))

/-- Every move of the caller keeps the lane, though it may put another request under way. -/
theorem move (h : LaneOf a b ta tb ab ba served underway) (hacc : Accounts a ta)
    (hmove : Move a effects a') :
    ∃ more, LaneOf a' b (ta ++ effects) tb (ab ++ Trace.envelopes effects) ba served
      (underway ++ more) := by
  have quiet (hrequests : Trace.requests effects = [])
      (hgoes : a'.isOver = false → a.isOver = false ∧
        a'.calls = a.calls ++ Trace.queued effects ∧ a'.pending = a.pending) :
      ∃ more, LaneOf a' b (ta ++ effects) tb (ab ++ Trace.envelopes effects) ba served
        (underway ++ more) := by
    refine ⟨[], ?_⟩
    rw [List.append_nil]
    exact h.caller hmove.kinded hrequests hmove.fixed.peer hgoes hmove.resolvedHere
  cases hmove with
  | aside _ _ _ hserving _ =>
      obtain ⟨_, hqueued, hrequests, _⟩ := Trace.calling_eq_nil hserving
      exact quiet hrequests fun hover => ⟨hover, by rw [hqueued, List.append_nil], rfl⟩
  | stuck hp => exact quiet rfl fun _ => ⟨by simp [isOver, hp], by simp, rfl⟩
  | rejected _ => exact quiet (by simp) fun hover => ⟨hover, by simp, rfl⟩
  | unheard _ _ => exact quiet (by simp) fun hover => ⟨hover, by simp, rfl⟩
  | @queued _ _ call _ _ _ =>
      refine quiet ?_ fun hover => ⟨hover, ?_, rfl⟩ <;>
        cases call.procedure.oneway <;> simp [calls]
  | closing _ => exact quiet (by simp) fun hover => ⟨hover, by simp [calls], rfl⟩
  | takeClose hq =>
      refine quiet rfl fun hover => ⟨hover, ?_, rfl⟩
      rw [calls_of_close hq]
      simp
  | sent htaken =>
      have hover : a.isOver = false := by
        cases hover : a.isOver with
        | false => rfl
        | true =>
            have hcalls := htaken.calls
            rw [Connection.calls, (hacc.ended hover).1] at hcalls
            cases hcalls
      exact ⟨_, h.sent hover htaken⟩
  | unsent _ _ =>
      refine quiet (Accounts.view_finish _ _ rfl fun _ _ => rfl) fun hover => ?_
      cases hover
  | ended _ =>
      refine quiet (Accounts.view_finish _ _ rfl fun _ _ => rfl) fun hover => ?_
      cases hover

theorem moves (h : LaneOf a b ta tb ab ba served underway) (hacc : Accounts a ta)
    (hmoves : Moves a effects a') :
    ∃ more, LaneOf a' b (ta ++ effects) tb (ab ++ Trace.envelopes effects) ba served
      (underway ++ more) := by
  induction hmoves generalizing ta ab underway with
  | refl => exact ⟨[], by simpa using h⟩
  | cons hmove _ ih =>
      obtain ⟨first, hfirst⟩ := h.move hacc hmove
      obtain ⟨later, hlater⟩ := ih hfirst (hacc.move hmove)
      exact ⟨first ++ later, by simpa [List.append_assoc] using hlater⟩

/-- The caller reads a response, which is that of the oldest call that waits. -/
theorem settle {response : Envelope}
    (h : LaneOf a b ta tb ab (response :: ba) served underway) (hacc : Accounts a ta)
    (hp : a.phase = .serving) (hkind : response.kind = .response) (arrival : Arrival) :
    ∃ x ∈ served, x.isTwoWay = true ∧ x.response? = some response ∧
      (a.settle response).2 =
        [.resolved x.call.ticket (resultOf x.call.procedure response)] ∧
      LaneOf (a.settle response).1 b (ta ++ .received arrival :: (a.settle response).2) tb ab ba
        served underway := by
  have hover : a.isOver = false := by simp [isOver, hp]
  obtain ⟨settled, answered, lost, hserved, hresponses, hwaiting, hlost⟩ := h.answers hover
  have hfirst : (response :: ba).filter Envelope.isResponse =
      response :: ba.filter Envelope.isResponse := by
    simp [Envelope.isResponse, hkind]
  rw [hfirst] at hresponses
  obtain ⟨x, answered, rfl⟩ : ∃ x rest, answered = x :: rest := by
    cases answered with
    | nil => cases hresponses
    | cons x rest => exact ⟨x, rest, rfl⟩
  obtain ⟨hx, hrest⟩ := List.cons.inj hresponses
  have hmem : x ∈ served.filter (·.isTwoWay) := by simp [hserved]
  obtain ⟨hmem, htwo⟩ := List.mem_filter.mp hmem
  -- It waits at the far end of the table, under the id of its request.
  have hid : response.callbackId = x.id := (heads_of_responseTo hx.symm).2
  have hsplit : a.pending.waiting =
      (((answered ++ lost).map (·.toSent) ++ underway.filter Sent.isTwoWay).map
        Sent.waiter).reverse ++ (response.callbackId, x.call) :: [] := by
    rw [← List.reverse_reverse a.pending.waiting, hwaiting, hid]
    simp [Sent.waiter]
  have hfind : a.pending.find? response.callbackId = some x.call := by
    rw [hacc.pending.find?_eq_some_iff, hsplit]
    simp
  refine ⟨x, hmem, htwo, hx.symm, by rw [settle_of_some hfind], ?_⟩
  rw [settle_of_some hfind]
  constructor
  case requests => simpa using h.requests
  case started => exact h.started
  case order =>
    obtain ⟨rest, hqueued, hcalls⟩ := h.order
    exact ⟨rest, by simpa using hqueued, hcalls⟩
  case inFlight => exact h.inFlight
  case answers =>
    refine fun _ => ⟨settled ++ [x], answered, lost, by simp [hserved], hrest, ?_, hlost⟩
    rw [hacc.pending.filter_waiting hsplit]
    simp
  case results =>
    intro entry hentry
    rw [Trace.results, Trace.view_append, List.mem_append] at hentry
    rcases hentry with hentry | hentry
    · exact (h.results entry hentry).imp_left (·.mono (List.subset_append_left _ _))
    · obtain rfl : entry = (x.call.ticket, resultOf x.call.procedure response) := by
        simpa using hentry
      exact .inr ⟨x, hmem, htwo, response, hx.symm, rfl⟩

/-! ### The end that serves -/

/-- The end that serves does something but serve a request. -/
theorem callee (h : LaneOf a b ta tb ab ba served underway) (hkinded : Trace.Kinded effects)
    (hstarted : Trace.started effects = []) (hresponses : Trace.responses effects = [])
    (hserving : b'.phase = .serving → b.phase = .serving ∧
      ab'.filter Envelope.isRequest = ab.filter Envelope.isRequest) :
    LaneOf a b' ta (tb ++ effects) ab' (ba ++ Trace.envelopes effects) served underway where
  requests := h.requests
  started := by simpa [hstarted] using h.started
  order := h.order
  inFlight hp := by
    obtain ⟨hp, hab⟩ := hserving hp
    rw [hab]
    exact h.inFlight hp
  answers hover := by
    obtain ⟨settled, answered, lost, hserved, hanswers, hwaiting, hlost⟩ := h.answers hover
    refine ⟨settled, answered, lost, hserved, ?_, hwaiting, fun hp => hlost (hserving hp).1⟩
    rw [List.filter_append, hkinded.filter_isResponse, hresponses, List.append_nil]
    exact hanswers
  results := h.results

/-- The end that serves reads a request, which is that of the next call. -/
theorem serve {request : Envelope} (h : LaneOf a b ta tb (request :: ab) ba served underway)
    (hp : b.phase = .serving) (hkind : request.kind = .request)
    (hprepared : ∀ call ∈ Trace.queued ta, Expected b call) {arrival : Arrival}
    (harrival : arrival.request? = some request) :
    (b.serve request).1.IsFair ∧ ∃ x underway',
      LaneOf a (b.serve request).1 ta (tb ++ .received arrival :: (b.serve request).2) ab
        (ba ++ Trace.envelopes (b.serve request).2) (served ++ [x]) underway' := by
  have hinFlight := h.inFlight hp
  have hfirst : (request :: ab).filter Envelope.isRequest =
      request :: ab.filter Envelope.isRequest := by
    simp [Envelope.isRequest, hkind]
  rw [hfirst] at hinFlight
  obtain ⟨s, underway, rfl⟩ : ∃ s rest, underway = s :: rest := by
    cases underway with
    | nil => cases hinFlight
    | cons s rest => exact ⟨s, rest, rfl⟩
  obtain ⟨rfl, hrest⟩ := List.cons.inj hinFlight
  obtain ⟨rest, hqueued, hcalls⟩ := h.order
  have hcall : s.call ∈ Trace.queued ta := by simp [hqueued]
  obtain ⟨hfair, outcome, hstarted, hend⟩ := serve_expected hp (hprepared s.call hcall)
  have hkinded := (serve_moves hp s.request).kinded
  refine ⟨hfair, ⟨s, outcome⟩, underway, ?_⟩
  constructor
  case requests => simp [h.requests]
  case started => simp [h.started, harrival, hstarted, Exchange.start]
  case order => exact ⟨rest, by simp [hqueued], hcalls⟩
  case inFlight => exact fun _ => hrest
  case results =>
    intro entry hmem
    refine (h.results entry hmem).imp_right fun ⟨x, hx, found⟩ => ?_
    exact ⟨x, List.mem_append_left _ hx, found⟩
  case answers =>
    intro hover
    obtain ⟨settled, answered, lost, hserved, hanswers, hwaiting, hlost⟩ := h.answers hover
    obtain rfl := hlost hp
    rw [List.append_nil] at hserved hwaiting
    rw [List.filter_append served, List.filter_append ba, hkinded.filter_isResponse, hserved]
    rcases hend with ⟨hresponses, hphase⟩ | ⟨response, hr, htwo, hresponses⟩
    · cases htwo : s.isTwoWay with
      | false =>
          refine ⟨settled, answered, [], ?_, ?_, ?_, fun _ => rfl⟩
          · simp [htwo]
          · simpa [hresponses] using hanswers
          · simpa [htwo] using hwaiting
      | true =>
          refine ⟨settled, answered, [⟨s, outcome⟩], ?_, ?_, ?_, fun hserving => ?_⟩
          · simp [htwo]
          · simpa [hresponses] using hanswers
          · simpa [htwo] using hwaiting
          · cases htwo.symm.trans (hphase hserving)
    · refine ⟨settled, answered ++ [⟨s, outcome⟩], [], ?_, ?_, ?_, fun _ => rfl⟩
      · simp [htwo]
      · simp [hresponses, hanswers, hr]
      · simpa [htwo] using hwaiting

end LaneOf

end DuplexRpc
