import DuplexRpc.Proofs.Pair.Linked
import Mathlib.Data.List.Nodup

/-!
# Calls from one end to the other

The calls of one end and the handlers of the other belong together: the far end runs one
handler for each request that it reads, in the order in which the calls were queued, and
a result that comes from the far end is that of the run for the very call. So the ends of
a pair never accuse each other.
-/

namespace DuplexRpc

open Connection

/-! ### What a response brings -/

/-- What a run of a handler has to do with the result of its call. -/
inductive Exchange.Brings (x : Exchange) : Except CallError Values → Prop
  | returned {values rets : Values} (houtcome : x.outcome = .returned values)
      (hconform : conform x.call.procedure.rets (some values.toJson) = .ok rets) :
      Brings x (.ok rets)
  | failed {message : String} (houtcome : x.outcome = .failed message) :
      Brings x (.error (.remote ⟨"errorReturned", message⟩))
  /-- The values that the handler returned do not conform. -/
  | refused {values : Values} {error : PayloadError} (houtcome : x.outcome = .returned values)
      (hconform : conform x.call.procedure.rets (some values.toJson) = .error error) :
      Brings x (.error (.remote ⟨"errorReturned", error.message⟩))

/-- What has been checked where the handler ran passes the check of the caller. -/
theorem Exchange.brings {x : Exchange} (wf : x.call.procedure.WellFormed) {response : Envelope}
    (h : x.response? = some response) : x.Brings (resultOf x.call.procedure response) := by
  unfold response? responseTo at h
  split at h
  next values houtcome =>
    obtain rfl := Option.some.inj h
    split
    next rets hconform =>
      have again := conform_toJson wf.rets (fits_of_conform wf.rets hconform)
      have hresult : resultOf x.call.procedure (.response x.id rets) = .ok rets := by
        simp only [resultOf, Envelope.response, again]
      rw [hresult]
      exact .returned houtcome hconform
    next error hconform => exact .refused houtcome hconform
  next message houtcome =>
    obtain rfl := Option.some.inj h
    exact .failed houtcome
  next => cases h

/-! ### One direction -/

/-- How the calls of one end, of which `near` is the trace, go together with what the other end
has served, of which `far` is the trace. The calls that have been served are listed with the
outcomes of their handlers; `side` is the side that serves. -/
structure Correlated (service : Service) (side : Side) (near far : List Effect)
    (served : List Exchange) : Prop where
  /-- The requests that were written first have been read. -/
  requests : served.map (fun x => (x.call.ticket, x.request)) <+: Trace.requests near
  /-- After each of them its handler ran, and no other handler ran. -/
  started : Trace.started far = served.flatMap fun x => [.read x.request, .ran x.run]
  /-- The handlers ran in the order in which the calls were queued. -/
  order : served.map (·.call) <+: Trace.queued near
  /-- A call has been served once at most. -/
  once : (served.map (·.call.ticket)).Nodup
  /-- It was served with the procedure that was named and the arguments that were checked. -/
  named : ∀ x ∈ served, ∃ name args, .called x.call.ticket name args ∈ near ∧
    (service.procedures side).find? name = some x.call.procedure ∧
    x.run.procedure = name ∧
    conform x.call.procedure.args (some args.toJson) = .ok x.run.args
  /-- A call is resolved once at most. -/
  resolved : ((Trace.results near).map (·.1)).Nodup
  /-- The result of a two-way call is that of its run, or the connection came to an end. -/
  results : ∀ call ∈ Trace.queued near, call.procedure.oneway = false → ∀ result,
    (call.ticket, result) ∈ Trace.results near → result = .error .connectionClosed ∨
      (served.map (·.call)).count call = 1 ∧ ∃ x ∈ served, x.call = call ∧ x.Brings result
  /-- No other call has a result from the far end. -/
  others : ∀ ticket result, (ticket, result) ∈ Trace.results near →
    (∀ call ∈ Trace.queued near, call.ticket = ticket → call.procedure.oneway = true) →
    result = .error .connectionClosed ∨ (∃ name, result = .error (.unknownProcedure name)) ∨
      (∃ error, result = .error (.invalidData error)) ∨
      result = .ok .empty ∧ ticket ∈ (Trace.queued near).map (·.ticket)

section

variable {σ τ : Type} {service : Service} {side : Side} {a : Connection σ} {b : Connection τ}
variable {ta tb : List Effect} {ab ba : List Envelope}

theorem Peer.error_of_prepare {peer : Peer} {name : String} {args : Values} {error : CallError}
    (h : peer.prepare name args = .error error) :
    error = .unknownProcedure name ∨ ∃ procedure invalid,
      (peer.service.procedures peer.side).find? name = some procedure ∧
      conform procedure.args (some args.toJson) = .error invalid ∧
      error = .invalidData invalid := by
  unfold prepare at h
  split at h
  next => exact .inl (Except.error.inj h).symm
  next procedure hfind =>
    split at h
    next => cases h
    next invalid hconform =>
      exact .inr ⟨procedure, invalid, hfind, hconform, (Except.error.inj h).symm⟩

/-- A call that was rejected has not been queued. -/
theorem Connection.Accounts.notMem_queued (h : Accounts a ta) {ticket : Nat} {name : String}
    {args : Values} {error : CallError} (hcalled : .called ticket name args ∈ ta)
    (hprepare : a.peer.prepare name args = .error error) :
    ticket ∉ (Trace.queued ta).map (·.ticket) := by
  intro hmem
  obtain ⟨call, hcall, rfl⟩ := List.mem_map.mp hmem
  obtain ⟨other, more, hmade, hok⟩ := h.prepared call hcall
  obtain ⟨rfl, rfl⟩ := h.eq_of_called hmade hcalled
  rw [hok] at hprepare
  cases hprepare

namespace Facing

variable (h : Facing service side a b ta tb ab ba)
include h

theorem farPeer : a.peer = { service, side := side.opposite } := by
  rw [Connection.peer, h.nearService, h.nearSide]

theorem correlated : ∃ served, Correlated service side.opposite ta tb served := by
  obtain ⟨served, underway, lane⟩ := h.forth
  obtain ⟨rest, hqueued, _⟩ := lane.order
  have hcalls : Trace.queued ta =
      served.map (·.call) ++ (underway.map (·.call) ++ rest) := by
    simp [hqueued, Function.comp_def]
  have mem_queued : ∀ x ∈ served, x.call ∈ Trace.queued ta := fun x hx => by
    rw [hcalls]
    exact List.mem_append_left _ (List.mem_map_of_mem hx)
  have once : (served.map (·.call.ticket)).Nodup := by
    have distinct := h.near.ascending.imp Nat.ne_of_lt
    rw [hcalls, List.map_append, List.map_map] at distinct
    exact (List.pairwise_append.mp distinct).1
  have served_once : ∀ x ∈ served, (served.map (·.call)).count x.call = 1 := fun x hx => by
    have distinct : ((served.map (·.call)).map (·.ticket)).Nodup := by
      rw [List.map_map]
      exact once
    have calls : (served.map (·.call)).Nodup :=
      List.Pairwise.of_map (·.ticket) (fun _ _ hne same => hne (congrArg _ same)) distinct
    rw [calls.count, if_pos (List.mem_map_of_mem hx)]
  refine ⟨served, ?_⟩
  constructor
  case requests =>
    refine ⟨underway.map Sent.entry, ?_⟩
    rw [lane.requests, List.map_append, List.map_map]
    rfl
  case started => exact lane.started
  case order => exact ⟨_, hcalls.symm⟩
  case once => exact once
  case named =>
    intro x hx
    obtain ⟨name, args, hcalled, hprepare⟩ := h.near.prepared x.call (mem_queued x hx)
    rw [h.farPeer] at hprepare
    obtain ⟨hfind, hconform⟩ := Peer.eq_of_prepare hprepare
    exact ⟨name, args, hcalled, hfind, h.wellFormed.name hfind, hconform⟩
  case resolved => exact (List.nodup_append.mp h.near.nodup).1
  case results =>
    intro call hcall htwo result hmem
    rcases lane.results _ hmem with hhere | ⟨x, hx, _, response, hresponse, hentry⟩
    · exact .inl (h.near.eq_closed_of_resolvedHere hcall htwo hhere)
    · obtain ⟨hticket, rfl⟩ := Prod.mk.inj hentry
      obtain rfl := h.near.eq_of_ticket_eq hcall (mem_queued x hx) hticket
      have wf := (h.expected (mem_queued x hx)).wellFormed
      exact .inr ⟨served_once x hx, x, hx, rfl, x.brings wf hresponse⟩
  case others =>
    intro ticket result hmem honeway
    rcases lane.results _ hmem with hhere | ⟨x, hx, htwo, _, _, hentry⟩
    · cases hhere with
      | rejected _ hprepare =>
          rcases Peer.error_of_prepare hprepare with rfl | ⟨_, invalid, _, _, rfl⟩
          · exact .inr (.inl ⟨_, rfl⟩)
          · exact .inr (.inr (.inl ⟨invalid, rfl⟩))
      | closed _ => exact .inl rfl
      | oneway hcall _ => exact .inr (.inr (.inr ⟨rfl, List.mem_map_of_mem hcall⟩))
    · obtain ⟨rfl, rfl⟩ := Prod.mk.inj hentry
      have := honeway x.call (mem_queued x hx) rfl
      simp [Sent.isTwoWay, this] at htwo

/-- What the caller has checked is not found invalid later. -/
theorem invalid {ticket : Nat} {error : PayloadError}
    (hmem : (ticket, .error (.invalidData error)) ∈ Trace.results ta) :
    ticket ∉ (Trace.queued ta).map (·.ticket) ∧
      ∃ name args procedure, .called ticket name args ∈ ta ∧
        (service.procedures side.opposite).find? name = some procedure ∧
        conform procedure.args (some args.toJson) = .error error := by
  obtain ⟨served, underway, lane⟩ := h.forth
  rcases lane.results _ hmem with hhere | ⟨x, hx, _, response, hresponse, hentry⟩
  · generalize hentry : (ticket, Except.error (CallError.invalidData error)) = entry at hhere
    cases hhere with
    | rejected hcalled hprepare =>
        obtain ⟨rfl, hresult⟩ := Prod.mk.inj hentry
        obtain rfl := Except.error.inj hresult
        refine ⟨h.near.notMem_queued hcalled hprepare, ?_⟩
        rw [h.farPeer] at hprepare
        rcases Peer.error_of_prepare hprepare with herror | ⟨procedure, _, hfind, hconform, herror⟩
        · cases herror
        · obtain rfl := CallError.invalidData.inj herror
          exact ⟨_, _, procedure, hcalled, hfind, hconform⟩
    | closed _ => cases (Prod.mk.inj hentry).2
    | oneway _ _ => cases (Prod.mk.inj hentry).2
  · obtain ⟨rest, hqueued, _⟩ := lane.order
    have hcall : x.call ∈ Trace.queued ta := by
      rw [hqueued]
      refine List.mem_append_left _ (List.mem_map_of_mem (List.mem_append_left _ ?_))
      exact List.mem_map_of_mem hx
    have brings := x.brings (h.expected hcall).wellFormed hresponse
    rw [← (Prod.mk.inj hentry).2] at brings
    cases brings

end Facing

end

/-! ### Traces with the handshake in them -/

namespace Trace

theorem results_afterHandshake (t : List Effect) : results (afterHandshake t) = results t :=
  view_afterHandshake (fun effect h => by cases effect <;> first | rfl | cases h) t

theorem queued_afterHandshake (t : List Effect) : queued (afterHandshake t) = queued t :=
  view_afterHandshake (fun effect h => by cases effect <;> first | rfl | cases h) t

theorem requests_afterHandshake (t : List Effect) : requests (afterHandshake t) = requests t :=
  view_afterHandshake (fun effect h => by cases effect <;> first | rfl | cases h) t

theorem started_afterHandshake (t : List Effect) : started (afterHandshake t) = started t :=
  view_afterHandshake (fun effect h => by cases effect <;> first | rfl | cases h) t

theorem mem_of_mem_afterHandshake {effect : Effect} {t : List Effect}
    (h : effect ∈ afterHandshake t) : effect ∈ t :=
  (List.mem_filter.mp h).1

end Trace

theorem Correlated.of_afterHandshake {service : Service} {side : Side} {near far : List Effect}
    {served : List Exchange}
    (h : Correlated service side (Trace.afterHandshake near) (Trace.afterHandshake far) served) :
    Correlated service side near far served := by
  obtain ⟨requests, started, order, once, named, resolved, results, others⟩ := h
  rw [Trace.requests_afterHandshake] at requests
  rw [Trace.started_afterHandshake] at started
  rw [Trace.queued_afterHandshake] at order results others
  rw [Trace.results_afterHandshake] at resolved results others
  refine ⟨requests, started, order, once, fun x hx => ?_, resolved, results, others⟩
  obtain ⟨name, args, hcalled, found⟩ := named x hx
  exact ⟨name, args, Trace.mem_of_mem_afterHandshake hcalled, found⟩

/-! ### Pairs -/

def Endpoint.error? {σ : Type} : Endpoint σ → Option ProtocolError
  | .greeting .. => none
  | .connected c =>
    match c.phase with
    | .ended error => error
    | _ => none
  | .refused error => some error

theorem Connection.IsFair.not_isAccusation {σ : Type} {c : Connection σ} (h : c.IsFair)
    {error : ProtocolError} (herror : (Endpoint.connected c).error? = some error) :
    ¬ error.IsAccusation := by
  unfold Endpoint.error? at herror
  simp only at herror
  split at herror
  next hp =>
    obtain ⟨fault, rfl⟩ := h error (herror ▸ hp)
    exact id
  next => cases herror

theorem Endpoint.Alone.not_isAccusation {σ : Type} {e : Endpoint σ} {c : Connection σ}
    {channel : List Bytes} {incoming : List Envelope} (h : e.Alone c channel incoming)
    (hfair : c.IsFair) {error : ProtocolError} (herror : e.error? = some error) :
    ¬ error.IsAccusation := by
  cases h with
  | greeting _ _ => cases herror
  | connected _ _ => exact hfair.not_isAccusation herror
  | refused h _ _ _ => exact Option.some.inj herror ▸ h

namespace Pair

variable {σ τ : Type} {service : Service} {source : Source} {client : Setup σ} {server : Setup τ}

/-- A pair from its beginning, after some turns, and all that has happened. -/
def play (client : Setup σ) (server : Setup τ) (turns : List (Side × Turn)) :
    Pair σ τ × List (Side × Effect) :=
  let (p, begun) := start client server
  let (p, later) := p.run turns
  (p, begun ++ later)

theorem togetherAfter_play (hparse : Service.parse source = .ok service)
    (hclient : client.service = service) (hserver : server.service = service)
    (hversion : client.config.version = server.config.version) (turns : List (Side × Turn)) :
    TogetherAfter service server.config.version (play client server turns).1
      (play client server turns).2 :=
  (TogetherAfter.start (Service.wellFormed_of_parse hparse) hclient hserver hversion).run turns

/-- A definition of a procedure that gives its argument back. -/
def echoSource : Source := .ofBytes (Text.utf8 "name echo\nserver say(text string)(text string)\n")

def echoService : Service :=
  (Service.named "echo").addProcedure
    { side := .server, oneway := false, name := "say", args := [⟨"text", .builtin .string⟩],
      rets := [⟨"text", .builtin .string⟩], line := 2 }

theorem parse_echoSource : Service.parse echoSource = .ok echoService :=
  eq_ok_of_toOption (by decide +kernel)

def echoSession : Session Unit where
  handle _ _ _ args := { state := (), requests := [], outcome := .returned args }

def echoSetup (side : Side) : Setup Unit :=
  { session := echoSession, service := echoService, side, config := {}, state := () }

theorem echoSetup_service (side : Side) : (echoSetup side).service = echoService := by
  rw [echoSetup]

theorem echoSetup_version :
    (echoSetup .client).config.version = (echoSetup .server).config.version := by
  simp only [echoSetup]

def echoValues : Values := Values.empty.insert "text" (.string "hello")

/-- The handshake, and then a call. -/
def echoTurns : List (Side × Turn) :=
  [(.server, .read), (.client, .read), (.client, .call "say" echoValues), (.client, .command),
    (.server, .read), (.client, .read)]

/-- Two ends of one service whose versions are the same, whatever their sessions do and in whatever
order they take their turns: in both directions every result from the far end is that of the one
run of the handler for that call, and no call is served twice. -/
theorem calls_are_correlated (hparse : Service.parse source = .ok service)
    (hclient : client.service = service) (hserver : server.service = service)
    (hversion : client.config.version = server.config.version) (turns : List (Side × Turn)) :
    let t := (play client server turns).2
    (∃ served, Correlated service .server (effectsOn .client t) (effectsOn .server t) served) ∧
      ∃ served, Correlated service .client (effectsOn .server t) (effectsOn .client t) served := by
  obtain ⟨a, b, ab, ba, _, facing⟩ :=
    togetherAfter_play hparse hclient hserver hversion turns
  obtain ⟨served, forth⟩ := facing.correlated
  obtain ⟨servedBack, back⟩ := facing.symm.correlated
  exact ⟨⟨served, forth.of_afterHandshake⟩, servedBack, back.of_afterHandshake⟩

theorem calls_are_correlated_echo :
    let t := (play (echoSetup .client) (echoSetup .server) echoTurns).2
    Trace.results (effectsOn .client t) = [(0, .ok echoValues)] ∧
      (∃ served, Correlated echoService .server (effectsOn .client t) (effectsOn .server t)
        served) ∧
      ∃ served, Correlated echoService .client (effectsOn .server t) (effectsOn .client t)
        served :=
  ⟨by decide +kernel, calls_are_correlated parse_echoSource (echoSetup_service _)
    (echoSetup_service _) echoSetup_version echoTurns⟩

/-- What holds of the errors of a pair, given what has happened so far. -/
structure Peaceful (service : Service) (p : Pair σ τ) (t : List (Side × Effect)) : Prop where
  client : ∀ error, p.client.error? = some error → ¬ error.IsAccusation
  server : ∀ error, p.server.error? = some error → ¬ error.IsAccusation
  /-- Data of a call is invalid only if that of its own arguments is, and then the call is not
  queued. -/
  calls : ∀ side ticket error,
    (ticket, .error (.invalidData error)) ∈ Trace.results (effectsOn side t) →
      ticket ∉ (Trace.queued (effectsOn side t)).map (·.ticket) ∧
        ∃ name args procedure, .called ticket name args ∈ effectsOn side t ∧
          (service.procedures side.opposite).find? name = some procedure ∧
          conform procedure.args (some args.toJson) = .error error

theorem TogetherAfter.peaceful {version : String} {p : Pair σ τ} {t : List (Side × Effect)}
    (h : TogetherAfter service version p t) : Peaceful service p t := by
  obtain ⟨a, b, ab, ba, linked, facing⟩ := h
  constructor
  case client =>
    intro error herror
    cases linked with
    | greeting _ _ _ _ _ => cases herror
    | accepted _ _ _ _ _ => cases herror
    | met _ _ _ _ => exact facing.nearFair.not_isAccusation herror
    | clientRefused h _ _ _ _ => exact Option.some.inj herror ▸ h
    | serverRefused _ hclient _ _ _ => exact hclient.not_isAccusation facing.nearFair herror
  case server =>
    intro error herror
    cases linked with
    | greeting _ _ _ _ _ => cases herror
    | accepted _ _ _ _ _ => exact facing.farFair.not_isAccusation herror
    | met _ _ _ _ => exact facing.farFair.not_isAccusation herror
    | clientRefused _ hserver _ _ _ => exact hserver.not_isAccusation facing.farFair herror
    | serverRefused h _ _ _ _ => exact Option.some.inj herror ▸ h
  case calls =>
    intro side ticket error hmem
    have invalid : ticket ∉ (Trace.queued (Trace.afterHandshake (effectsOn side t))).map
          (·.ticket) ∧
        ∃ name args procedure, .called ticket name args ∈
            Trace.afterHandshake (effectsOn side t) ∧
          (service.procedures side.opposite).find? name = some procedure ∧
          conform procedure.args (some args.toJson) = .error error := by
      rw [← Trace.results_afterHandshake] at hmem
      cases side with
      | client => exact facing.invalid hmem
      | server => exact facing.symm.invalid hmem
    obtain ⟨hqueued, name, args, procedure, hcalled, found⟩ := invalid
    rw [Trace.queued_afterHandshake] at hqueued
    exact ⟨hqueued, name, args, procedure, Trace.mem_of_mem_afterHandshake hcalled, found⟩

/-- Two ends of one service whose versions are the same never accuse each other, whatever their
sessions do and in whatever order they take their turns. -/
theorem ends_never_accuse (hparse : Service.parse source = .ok service)
    (hclient : client.service = service) (hserver : server.service = service)
    (hversion : client.config.version = server.config.version) (turns : List (Side × Turn)) :
    Peaceful service (play client server turns).1 (play client server turns).2 :=
  (togetherAfter_play hparse hclient hserver hversion turns).peaceful

theorem ends_never_accuse_echo :
    Peaceful echoService (play (echoSetup .client) (echoSetup .server) echoTurns).1
      (play (echoSetup .client) (echoSetup .server) echoTurns).2 :=
  ends_never_accuse parse_echoSource (echoSetup_service _) (echoSetup_service _)
    echoSetup_version echoTurns

end Pair

end DuplexRpc
