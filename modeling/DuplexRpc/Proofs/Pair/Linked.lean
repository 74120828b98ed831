import DuplexRpc.Pair
import DuplexRpc.Proofs.Endpoint.Stages
import DuplexRpc.Proofs.Pair.Facing

/-!
# The ends of a pair

Two connections of a pair face each other from the first byte on, if an end that still
waits for its part of the handshake is taken for the connection that it will be. Each
turn of either end keeps the stage that the handshake has reached, or takes it to the
next one, and what has been written in the meantime waits behind the greeting.
-/

namespace DuplexRpc

/-! ### What happens after the handshake -/

namespace Trace

def afterHandshake (t : List Effect) : List Effect := t.filter (!·.isGreeting)

@[simp] theorem afterHandshake_append (t u : List Effect) :
    afterHandshake (t ++ u) = afterHandshake t ++ afterHandshake u :=
  List.filter_append _ _

theorem Kinded.afterHandshake {t : List Effect} (h : Kinded t) : afterHandshake t = t := by
  refine List.filter_eq_self.mpr fun effect hmem => ?_
  have := h effect hmem
  cases effect <;> first | rfl | cases this

/-- A view that shows nothing of the handshake. -/
theorem view_afterHandshake {α : Type} {kind : Effect → Option α}
    (h : ∀ effect : Effect, effect.isGreeting = true → kind effect = none) (t : List Effect) :
    view kind (afterHandshake t) = view kind t := by
  induction t with
  | nil => rfl
  | cons effect t ih =>
      have first : afterHandshake (effect :: t) =
          if effect.isGreeting then afterHandshake t else effect :: afterHandshake t := by
        simp only [afterHandshake, List.filter_cons]
        cases effect.isGreeting <;> rfl
      rw [first]
      cases hg : effect.isGreeting with
      | true => simpa [h effect hg] using ih
      | false => simpa using ih

/-- After the handshake the payloads of envelopes are written, and no others. -/
theorem Kinded.written {t : List Effect} (h : Kinded t) :
    Pair.written t = (envelopes t).map Envelope.toBytes := by
  rw [map_view, Pair.written]
  refine view_congr fun effect hmem => ?_
  have kinded := h effect hmem
  cases effect <;> first | rfl | cases kinded

end Trace

/-! ### The far end is gone -/

/-- A connection that has noted whether the far end is gone. -/
def Connection.noteFar {σ : Type} (c : Connection σ) (isGone : Bool) : Connection σ :=
  if isGone then (c.step .farGone).1 else c

section

variable {σ : Type}

theorem Setup.connection_noteFar (setup : Setup σ) (outlet : Outlet) (isGone : Bool) :
    (setup.connection outlet).noteFar isGone =
      setup.connection { outlet with isOpen := outlet.isOpen && !isGone } := by
  cases isGone with
  | false => rw [Bool.not_false, Bool.and_true]; rfl
  | true => rw [Bool.not_true, Bool.and_false]; rfl

theorem Endpoint.noteFar_greeting (setup : Setup σ) (outlet : Outlet) (isGone : Bool) :
    (greeting setup outlet).noteFar isGone =
      .greeting setup { outlet with isOpen := outlet.isOpen && !isGone } := by
  cases isGone with
  | false => rw [Bool.not_false, Bool.and_true]; rfl
  | true => rw [Bool.not_true, Bool.and_false]; rfl

theorem Endpoint.noteFar_connected (c : Connection σ) (isGone : Bool) :
    (connected c).noteFar isGone = .connected (c.noteFar isGone) := by
  cases isGone <;> rfl

theorem Endpoint.noteFar_refused (error : ProtocolError) (isGone : Bool) :
    (refused error : Endpoint σ).noteFar isGone = .refused error := by
  cases isGone <;> rfl

end

/-! ### One turn of a connection -/

open Pair

section

variable {σ τ : Type} {service : Service} {side : Side} {a : Connection σ} {b : Connection τ}
variable {ta tb : List Effect} {ab ba : List Envelope}

/-- What a connection does in its turn, and what is left in its channel. -/
theorem Facing.turn (h : Facing service side a b ta tb ab ba) {turn : Turn} {event : Event}
    {isLast : Bool}
    (hevent : turn.event? (deliver (.connected a) isLast (ba.map Envelope.toBytes)).1 =
      some event) :
    ∃ left, (if turn = .read then (deliver (.connected a) isLast (ba.map Envelope.toBytes)).2
        else ba.map Envelope.toBytes) = left.map Envelope.toBytes ∧
      Facing service side (a.step event).1 b (ta ++ (a.step event).2) tb
        (ab ++ Trace.envelopes (a.step event).2) left := by
  by_cases hturn : turn = .read
  · subst hturn
    obtain ⟨arrival, harrival, rfl⟩ := Option.map_eq_some_iff.mp hevent
    rw [if_pos rfl]
    by_cases hp : a.phase = .serving
    · simp only [deliver, Endpoint.reads, hp, decide_true, if_true] at harrival ⊢
      cases ba with
      | nil =>
          refine ⟨[], rfl, ?_⟩
          cases isLast with
          | false => cases harrival
          | true =>
              obtain rfl := Option.some.inj harrival
              have hclosed : a.arrive .closed = a.finish none := rfl
              exact h.cut hp hclosed nofun rfl []
      | cons e ba =>
          refine ⟨ba, rfl, ?_⟩
          obtain rfl := Option.some.inj harrival
          unfold Framing.receive
          split
          next =>
            refine h.cut hp rfl ?_ rfl ba
            rintro error ⟨⟩
            exact ⟨.frameTooBig, rfl⟩
          next => exact h.read hp
    · simp [deliver, Endpoint.reads, hp] at harrival
  · rw [if_neg hturn]
    refine ⟨ba, rfl, h.idle ?_⟩
    rintro arrival rfl
    cases turn <;> first | cases hevent | exact absurd rfl hturn

theorem Facing.noteNear (h : Facing service side a b ta tb ab ba) (isGone : Bool) :
    Facing service side (a.noteFar isGone) b ta tb ab ba := by
  have hread : ∀ arrival, Event.farGone = .arrival arrival → a.phase ≠ .serving := nofun
  cases isGone with
  | false => exact h
  | true => simpa [Connection.noteFar, Connection.step] using h.idle hread

theorem Facing.note (h : Facing service side a b ta tb ab ba) (nearGone farGone : Bool) :
    Facing service side (a.noteFar farGone) (b.noteFar nearGone) ta tb ab ba := by
  have noted := (h.symm.noteNear nearGone).symm
  rw [Side.opposite_opposite] at noted
  exact noted.noteNear farGone

end

/-! ### Stages -/

theorem Facing.start {σ τ : Type} {service : Service} (hservice : service.WellFormed)
    {client : Setup σ} {server : Setup τ}
    (hclient : client.service = service) (hserver : server.service = service)
    (hclientSide : client.side = .client) (hserverSide : server.side = .server) (o o' : Outlet) :
    Facing service .client (client.connection o) (server.connection o') [] [] [] [] where
  wellFormed := hservice
  nearService := hclient
  farService := hserver
  nearSide := hclientSide
  farSide := hserverSide
  near := .start ..
  far := .start ..
  nearFair := nofun
  farFair := nofun
  forth := ⟨[], [], .start rfl rfl⟩
  back := ⟨[], [], .start rfl rfl⟩

/-- Whether an error blames the far end for what it has written after the handshake. -/
def ProtocolError.IsAccusation : ProtocolError → Prop
  | malformedEnvelope | invalidData .. | unknownProcedure _ => True
  | _ => False

/-- How an end stands whose far end has refused: the connection that it is or would have become,
and what is left in its channel. -/
inductive Endpoint.Alone {σ : Type} :
    Endpoint σ → Connection σ → List Bytes → List Envelope → Prop
  | greeting (setup : Setup σ) (outlet : Outlet) :
      Alone (.greeting setup outlet) (setup.connection outlet) [] []
  | connected (c : Connection σ) (incoming : List Envelope) :
      Alone (.connected c) c (incoming.map Envelope.toBytes) incoming
  | refused {error : ProtocolError} (h : ¬ error.IsAccusation) (c : Connection σ)
      (channel : List Bytes) (incoming : List Envelope) :
      Alone (.refused error) c channel incoming

namespace Pair

variable {σ τ : Type}

/-- The stages of a pair whose ends have the same version. The connections are those that the ends
are or will be, and the envelopes are those that are under way to either of them. -/
inductive Linked (version : String) :
    Pair σ τ → Connection σ → Connection τ → List Envelope → List Envelope → Prop
  /-- The client has sent its version. -/
  | greeting {client : Setup σ} {server : Setup τ} (hclient : client.side = .client)
      (hserver : server.side = .server) (hversion : server.config.version = version)
      (o o' : Outlet) :
      Linked version ⟨.greeting client o, .greeting server o', [], [Text.utf8 version]⟩
        (client.connection o) (server.connection o') [] []
  /-- The server has accepted the client, but the client has not read that yet. -/
  | accepted {client : Setup σ} (hside : client.side = .client) (o : Outlet) (b : Connection τ)
      {toClient toServer : List Bytes} {ab ba : List Envelope}
      (hclient : toClient = Text.utf8 Endpoint.acceptance :: ba.map Envelope.toBytes)
      (hserver : toServer = ab.map Envelope.toBytes) :
      Linked version ⟨.greeting client o, .connected b, toClient, toServer⟩
        (client.connection o) b ab ba
  | met (a : Connection σ) (b : Connection τ) {toClient toServer : List Bytes}
      {ab ba : List Envelope} (hclient : toClient = ba.map Envelope.toBytes)
      (hserver : toServer = ab.map Envelope.toBytes) :
      Linked version ⟨.connected a, .connected b, toClient, toServer⟩ a b ab ba
  | clientRefused {error : ProtocolError} (h : ¬ error.IsAccusation) {server : Endpoint τ}
      {b : Connection τ} {toServer : List Bytes} {ab : List Envelope}
      (hserver : server.Alone b toServer ab) (a : Connection σ) (toClient : List Bytes)
      (ba : List Envelope) :
      Linked version ⟨.refused error, server, toClient, toServer⟩ a b ab ba
  | serverRefused {error : ProtocolError} (h : ¬ error.IsAccusation) {client : Endpoint σ}
      {a : Connection σ} {toClient : List Bytes} {ba : List Envelope}
      (hclient : client.Alone a toClient ba) (b : Connection τ) (toServer : List Bytes)
      (ab : List Envelope) :
      Linked version ⟨client, .refused error, toClient, toServer⟩ a b ab ba

variable {service : Service} {version : String} {p : Pair σ τ} {tc ts : List Effect}

/-- What every turn keeps of a pair, of which `tc` and `ts` are the traces so far: the ends stand
at one of the stages, and the connections face each other. -/
def Together (service : Service) (version : String) (p : Pair σ τ) (tc ts : List Effect) : Prop :=
  ∃ a b ab ba, Linked version p a b ab ba ∧
    Facing service .client a b (Trace.afterHandshake tc) (Trace.afterHandshake ts) ab ba

/-! ### One end is over -/

theorem noteFar_alone {e : Endpoint σ} {c : Connection σ} {channel : List Bytes}
    {incoming : List Envelope} (h : e.Alone c channel incoming) (isGone : Bool) :
    (e.noteFar isGone).Alone (c.noteFar isGone) channel incoming := by
  cases h with
  | greeting setup outlet =>
      rw [Endpoint.noteFar_greeting, Setup.connection_noteFar]
      exact .greeting setup _
  | connected c incoming =>
      rw [Endpoint.noteFar_connected]
      exact .connected _ incoming
  | refused h c channel incoming =>
      rw [Endpoint.noteFar_refused]
      exact .refused h _ channel incoming

/-- An end that notes that the other one is over stays at its stage. -/
theorem Linked.note {a : Connection σ} {b : Connection τ} {ab ba : List Envelope}
    (h : Linked version p a b ab ba) (clientOver serverOver : Bool) :
    Linked version
      { p with client := p.client.noteFar serverOver, server := p.server.noteFar clientOver }
      (a.noteFar serverOver) (b.noteFar clientOver) ab ba := by
  cases h with
  | greeting hclient hserver hversion o o' =>
      simp only [Endpoint.noteFar_greeting, Setup.connection_noteFar]
      exact .greeting hclient hserver hversion _ _
  | accepted hside o b hclient hserver =>
      simp only [Endpoint.noteFar_greeting, Endpoint.noteFar_connected, Setup.connection_noteFar]
      exact .accepted hside _ _ hclient hserver
  | met a b hclient hserver =>
      simp only [Endpoint.noteFar_connected]
      exact .met _ _ hclient hserver
  | clientRefused h hserver a toClient ba =>
      simp only [Endpoint.noteFar_refused]
      exact .clientRefused h (noteFar_alone hserver clientOver) _ toClient ba
  | serverRefused h hclient b toServer ab =>
      simp only [Endpoint.noteFar_refused]
      exact .serverRefused h (noteFar_alone hclient serverOver) _ toServer ab

theorem Together.note (h : Together service version p tc ts) (clientOver serverOver : Bool) :
    Together service version
      { p with client := p.client.noteFar serverOver, server := p.server.noteFar clientOver }
      tc ts := by
  obtain ⟨a, b, ab, ba, linked, facing⟩ := h
  exact ⟨_, _, ab, ba, linked.note clientOver serverOver, facing.note clientOver serverOver⟩

/-! ### Turns -/

/-- Before the handshake is done nothing happens but that an end reads. -/
theorem step_greeting {setup : Setup σ} {outlet : Outlet} {turn : Turn} (hturn : turn ≠ .read)
    {arrival : Option Arrival} {event : Event} (hevent : turn.event? arrival = some event) :
    (Endpoint.greeting setup outlet).step event = (.greeting setup outlet, []) := by
  cases turn with
  | read => exact absurd rfl hturn
  | _ =>
      obtain rfl := Option.some.inj hevent
      rfl

theorem afterHandshake_step (t : List Effect) (c : Connection σ) (event : Event) :
    Trace.afterHandshake (t ++ ((Endpoint.connected c).step event).2) =
      Trace.afterHandshake t ++ (c.step event).2 := by
  rw [Trace.afterHandshake_append]
  exact congrArg _ (c.kinded_step event).afterHandshake

theorem written_step (c : Connection σ) (event : Event) :
    written ((Endpoint.connected c).step event).2 =
      (Trace.envelopes (c.step event).2).map Envelope.toBytes :=
  (c.kinded_step event).written

/-- An end that is alone goes on until it has read what is left. -/
theorem turn_alone {side : Side} {e : Endpoint σ} {a : Connection σ} {b : Connection τ}
    {channel : List Bytes} {ab ba : List Envelope} (halone : e.Alone a channel ba)
    (h : Facing service side a b (Trace.afterHandshake tc) (Trace.afterHandshake ts) ab ba)
    {turn : Turn} {event : Event}
    (hevent : turn.event? (deliver e true channel).1 = some event) :
    ∃ a' ab' ba',
      (e.step event).1.Alone a' (if turn = .read then (deliver e true channel).2 else channel) ba' ∧
      Facing service side a' b (Trace.afterHandshake (tc ++ (e.step event).2))
        (Trace.afterHandshake ts) ab' ba' := by
  cases halone with
  | greeting setup outlet =>
      by_cases hturn : turn = .read
      · subst hturn
        obtain rfl := Option.some.inj hevent
        refine ⟨setup.connection outlet, ab, [], .refused id _ _ [], ?_⟩
        simpa [Endpoint.step, Endpoint.greet, Endpoint.refuse, Trace.afterHandshake,
          Effect.isGreeting] using h
      · rw [step_greeting hturn hevent, if_neg hturn, List.append_nil]
        exact ⟨_, ab, [], .greeting setup outlet, h⟩
  | connected c incoming =>
      obtain ⟨left, hleft, h⟩ := h.turn hevent
      refine ⟨(a.step event).1, ab ++ Trace.envelopes (a.step event).2, left, ?_, ?_⟩
      · rw [hleft]
        exact .connected _ left
      · rw [afterHandshake_step]
        exact h
  | refused hfair c channel incoming =>
      refine ⟨a, ab, ba, .refused hfair a _ ba, ?_⟩
      rw [show (Endpoint.refused (σ := σ) _).step event = (.refused _, []) from rfl,
        List.append_nil]
      exact h

/-- The pair after a turn of the client, before the server has noticed. -/
abbrev afterClient (p : Pair σ τ) (turn : Turn) (event : Event) : Pair σ τ :=
  { p with
    client := (p.client.step event).1
    toClient := if turn = .read then (p.arrival .client).2 else p.toClient
    toServer := p.toServer ++ written (p.client.step event).2 }

abbrev afterServer (p : Pair σ τ) (turn : Turn) (event : Event) : Pair σ τ :=
  { p with
    server := (p.server.step event).1
    toClient := p.toClient ++ written (p.server.step event).2
    toServer := if turn = .read then (p.arrival .server).2 else p.toServer }

theorem Together.idleClient (h : Together service version p tc ts) {turn : Turn} {event : Event}
    (hturn : turn ≠ .read) (hstep : p.client.step event = (p.client, [])) :
    Together service version (p.afterClient turn event) (tc ++ (p.client.step event).2) ts := by
  simpa [Pair.afterClient, hstep, hturn, written] using h

theorem not_read_of_refused {error : ProtocolError} {isLast : Bool} {channel : List Bytes}
    {turn : Turn} {event : Event}
    (hevent : turn.event? (deliver (.refused error : Endpoint σ) isLast channel).1 = some event) :
    turn ≠ .read := by
  rintro rfl
  cases hevent

/-- What the client makes of the acceptance. -/
theorem greet_acceptance {client : Setup σ} (hside : client.side = .client) (o : Outlet) :
    (∃ error : ProtocolError, ¬ error.IsAccusation ∧ Endpoint.greet client o
      (Framing.receive o.limit (Text.utf8 Endpoint.acceptance)) = Endpoint.refuse error) ∨
    Endpoint.greet client o (Framing.receive o.limit (Text.utf8 Endpoint.acceptance)) =
      (.connected (client.connection o), [.opened]) := by
  unfold Framing.receive
  split
  next => exact .inl ⟨.transport .frameTooBig, id, rfl⟩
  next =>
    refine .inr ?_
    simp only [Endpoint.greet, Text.ofUtf8?_utf8, hside, Endpoint.conclude, if_true]
    rfl

theorem Together.afterClient (h : Together service version p tc ts) {turn : Turn} {event : Event}
    (hevent : turn.event? (p.arrival .client).1 = some event) :
    Together service version (p.afterClient turn event) (tc ++ (p.client.step event).2) ts := by
  have idle : turn ≠ .read → p.client.step event = (p.client, []) →
      Together service version (p.afterClient turn event) (tc ++ (p.client.step event).2) ts :=
    h.idleClient
  obtain ⟨a, b, ab, ba, linked, facing⟩ := h
  cases linked with
  | greeting hclient hserver hversion o o' =>
      -- The server has not written anything yet.
      have hturn : turn ≠ .read := by
        rintro rfl
        cases hevent
      exact idle hturn (step_greeting hturn hevent)
  | @accepted client hside o b _ toServer _ _ hclient hserver =>
      subst hclient
      by_cases hturn : turn = .read
      · subst hturn
        obtain rfl := Option.some.inj hevent
        refine ⟨client.connection o, b, ab, ba, ?_, ?_⟩ <;>
          dsimp only [Pair.afterClient, Endpoint.step, Endpoint.limit] <;>
          rcases greet_acceptance hside o with ⟨error, hfair, hgreet⟩ | hgreet <;>
          rw [hgreet]
        · have alone := Endpoint.Alone.connected b ab
          rw [← hserver, ← List.append_nil toServer] at alone
          exact .clientRefused hfair alone _ _ ba
        · exact .met _ b rfl (by rw [← hserver]; exact List.append_nil _)
        · rw [Trace.afterHandshake_append]
          exact (List.append_nil _).symm ▸ facing
        · rw [Trace.afterHandshake_append]
          exact (List.append_nil _).symm ▸ facing
      · exact idle hturn (step_greeting hturn hevent)
  | met a b hclient hserver =>
      subst hclient
      obtain ⟨left, hleft, facing⟩ := facing.turn hevent
      refine ⟨(a.step event).1, b, ab ++ Trace.envelopes (a.step event).2, left,
        .met _ b hleft ?_, ?_⟩
      · rw [List.map_append, ← hserver, ← written_step]
      · rw [afterHandshake_step]
        exact facing
  | clientRefused h hserver a toClient ba => exact idle (not_read_of_refused hevent) rfl
  | serverRefused h hclient b toServer ab =>
      obtain ⟨a', ab', ba', hclient, facing⟩ := turn_alone hclient facing hevent
      exact ⟨a', b, ab', ba', .serverRefused h hclient b _ ab', facing⟩

theorem Together.idleServer (h : Together service version p tc ts) {turn : Turn} {event : Event}
    (hturn : turn ≠ .read) (hstep : p.server.step event = (p.server, [])) :
    Together service version (p.afterServer turn event) tc (ts ++ (p.server.step event).2) := by
  simpa [Pair.afterServer, hstep, hturn, written] using h

/-- What the server makes of the version. -/
theorem greet_version {server : Setup τ} (hside : server.side = .server)
    (hversion : server.config.version = version) (o : Outlet) :
    (∃ error : ProtocolError, ¬ error.IsAccusation ∧ Endpoint.greet server o
      (Framing.receive o.limit (Text.utf8 version)) = Endpoint.refuse error) ∨
    Endpoint.greet server o (Framing.receive o.limit (Text.utf8 version)) =
      (.connected (server.connection o), [.greeted Endpoint.acceptance, .opened]) := by
  unfold Framing.receive
  split
  next => exact .inl ⟨.transport .frameTooBig, id, rfl⟩
  next =>
    simp only [Endpoint.greet, Text.ofUtf8?_utf8, hside, Endpoint.accept, hversion, if_true]
    split
    next => exact .inr rfl
    next fault _ => exact .inl ⟨.transport fault, id, rfl⟩

theorem Together.afterServer (h : Together service version p tc ts) {turn : Turn} {event : Event}
    (hevent : turn.event? (p.arrival .server).1 = some event) :
    Together service version (p.afterServer turn event) tc (ts ++ (p.server.step event).2) := by
  have idle : turn ≠ .read → p.server.step event = (p.server, []) →
      Together service version (p.afterServer turn event) tc (ts ++ (p.server.step event).2) :=
    h.idleServer
  obtain ⟨a, b, ab, ba, linked, facing⟩ := h
  cases linked with
  | @greeting client server hclient hserver hversion o o' =>
      by_cases hturn : turn = .read
      · subst hturn
        obtain rfl := Option.some.inj hevent
        refine ⟨client.connection o, server.connection o', [], [], ?_, ?_⟩ <;>
          dsimp only [Pair.afterServer, Endpoint.step, Endpoint.limit] <;>
          rcases greet_version hserver hversion o' with ⟨error, hfair, hgreet⟩ | hgreet <;>
          rw [hgreet]
        · exact .serverRefused hfair (.greeting client o) _ _ []
        · exact .accepted hclient o _ rfl rfl
        · rw [Trace.afterHandshake_append]
          exact (List.append_nil _).symm ▸ facing
        · rw [Trace.afterHandshake_append]
          exact (List.append_nil _).symm ▸ facing
      · exact idle hturn (step_greeting hturn hevent)
  | @accepted client hside o b _ _ _ _ hclient hserver =>
      subst hserver
      obtain ⟨left, hleft, facing⟩ := facing.symm.turn hevent
      refine ⟨client.connection o, (b.step event).1, left,
        ba ++ Trace.envelopes (b.step event).2, .accepted hside o _ ?_ hleft, ?_⟩
      · rw [List.map_append, ← List.cons_append, ← hclient, ← written_step]
      · rw [afterHandshake_step]
        exact facing.symm
  | met a b hclient hserver =>
      subst hserver
      obtain ⟨left, hleft, facing⟩ := facing.symm.turn hevent
      refine ⟨a, (b.step event).1, left, ba ++ Trace.envelopes (b.step event).2,
        .met a _ ?_ hleft, ?_⟩
      · rw [List.map_append, ← hclient, ← written_step]
      · rw [afterHandshake_step]
        exact facing.symm
  | clientRefused h hserver a toClient ba =>
      obtain ⟨b', ba', ab', hserver, facing⟩ := turn_alone hserver facing.symm hevent
      exact ⟨a, b', ab', ba', .clientRefused h hserver a _ ba', facing.symm⟩
  | serverRefused h hclient b toServer ab => exact idle (not_read_of_refused hevent) rfl

/-! ### Runs -/

theorem effectsOn_append (side : Side) (t u : List (Side × Effect)) :
    effectsOn side (t ++ u) = effectsOn side t ++ effectsOn side u :=
  List.filterMap_append

theorem effectsOn_cons_self (side : Side) (effect : Effect) (t : List (Side × Effect)) :
    effectsOn side ((side, effect) :: t) = effect :: effectsOn side t := by
  simp [effectsOn]

theorem effectsOn_map_self (side : Side) (effects : List Effect) :
    effectsOn side (effects.map (side, ·)) = effects := by
  induction effects with
  | nil => rfl
  | cons effect rest ih => rw [List.map_cons, effectsOn_cons_self, ih]

theorem effectsOn_map_of_ne {side other : Side} (h : other ≠ side) (effects : List Effect) :
    effectsOn side (effects.map (other, ·)) = [] := by
  simp [effectsOn, h]

theorem client_ne_server : Side.client ≠ .server := nofun

/-- What every turn keeps of a pair that has done what a trace records. -/
def TogetherAfter (service : Service) (version : String) (p : Pair σ τ)
    (t : List (Side × Effect)) : Prop :=
  Together service version p (effectsOn .client t) (effectsOn .server t)

theorem stepClient_of_none {turn : Turn} (hevent : turn.event? (p.arrival .client).1 = none) :
    p.stepClient turn = (p, []) := by
  simp only [Pair.stepClient, hevent]

theorem stepClient_of_event {turn : Turn} {event : Event}
    (hevent : turn.event? (p.arrival .client).1 = some event) :
    p.stepClient turn =
      ({ p.afterClient turn event with
          server := p.server.noteFar (p.client.step event).1.isOver },
        (p.client.step event).2) := by
  simp only [Pair.stepClient, hevent]

/-- A pair with its ends exchanged. -/
def swap (p : Pair σ τ) : Pair τ σ :=
  { client := p.server, server := p.client, toClient := p.toServer, toServer := p.toClient }

/-- A turn of the server is one of the client when the ends are exchanged. -/
theorem stepServer_of_swap {turn : Turn} {q : Pair τ σ} {effects : List Effect}
    (h : p.swap.stepClient turn = (q, effects)) : p.stepServer turn = (q.swap, effects) := by
  have same : p.swap.arrival .client = p.arrival .server := rfl
  have exchanged : p.stepServer turn =
      ((p.swap.stepClient turn).1.swap, (p.swap.stepClient turn).2) := by
    simp only [Pair.stepServer, Pair.stepClient, same]
    split <;> rfl
  rw [exchanged, h]

theorem stepServer_of_none {turn : Turn} (hevent : turn.event? (p.arrival .server).1 = none) :
    p.stepServer turn = (p, []) :=
  stepServer_of_swap (stepClient_of_none hevent)

theorem stepServer_of_event {turn : Turn} {event : Event}
    (hevent : turn.event? (p.arrival .server).1 = some event) :
    p.stepServer turn =
      ({ p.afterServer turn event with
          client := p.client.noteFar (p.server.step event).1.isOver },
        (p.server.step event).2) :=
  stepServer_of_swap (stepClient_of_event hevent)

theorem Together.stepClient (h : Together service version p tc ts) (turn : Turn) :
    Together service version (p.stepClient turn).1 (tc ++ (p.stepClient turn).2) ts := by
  cases hevent : turn.event? (p.arrival .client).1 with
  | none =>
      rwa [stepClient_of_none hevent, List.append_nil]
  | some event =>
      rw [stepClient_of_event hevent]
      exact (h.afterClient hevent).note _ false

theorem Together.stepServer (h : Together service version p tc ts) (turn : Turn) :
    Together service version (p.stepServer turn).1 tc (ts ++ (p.stepServer turn).2) := by
  cases hevent : turn.event? (p.arrival .server).1 with
  | none =>
      rwa [stepServer_of_none hevent, List.append_nil]
  | some event =>
      rw [stepServer_of_event hevent]
      exact (h.afterServer hevent).note false _

theorem TogetherAfter.step {t : List (Side × Effect)} (h : TogetherAfter service version p t)
    (input : Side × Turn) :
    TogetherAfter service version (p.step input).1 (t ++ (p.step input).2) := by
  obtain ⟨side, turn⟩ := input
  rw [TogetherAfter, effectsOn_append, effectsOn_append]
  cases side with
  | client =>
      simp only [Pair.step, effectsOn_map_self, effectsOn_map_of_ne client_ne_server,
        List.append_nil]
      exact Together.stepClient h turn
  | server =>
      simp only [Pair.step, effectsOn_map_self, effectsOn_map_of_ne client_ne_server.symm,
        List.append_nil]
      exact Together.stepServer h turn

theorem start_client {setup : Setup σ} (hside : setup.side = .client) :
    (∃ error : ProtocolError, ¬ error.IsAccusation ∧
      Endpoint.start setup = Endpoint.refuse error) ∨
    Endpoint.start setup =
      (.greeting setup ⟨setup.config.maxFrame, true⟩, [.greeted setup.config.version]) := by
  simp only [Endpoint.start, hside]
  split
  next => exact .inr rfl
  next fault _ => exact .inl ⟨.transport fault, id, rfl⟩

theorem TogetherAfter.start (hservice : service.WellFormed) {client : Setup σ} {server : Setup τ}
    (hclient : client.service = service) (hserver : server.service = service)
    (hversion : client.config.version = server.config.version) :
    TogetherAfter service server.config.version (Pair.start client server).1
      (Pair.start client server).2 := by
  generalize hnear : ({ client with side := .client } : Setup σ) = near
  generalize hfar : ({ server with side := .server } : Setup τ) = far
  have hnearSide : near.side = .client := by rw [← hnear]
  have hfarSide : far.side = .server := by rw [← hfar]
  have hnearVersion : near.config.version = server.config.version := by rw [← hnear, hversion]
  have hfarVersion : far.config.version = server.config.version := by rw [← hfar]
  let o : Outlet := ⟨near.config.maxFrame, true⟩
  let o' : Outlet := ⟨far.config.maxFrame, true⟩
  have facing : Facing service .client (near.connection o) (far.connection o') [] [] [] [] :=
    .start hservice (by rw [← hnear, hclient]) (by rw [← hfar, hserver]) hnearSide hfarSide o o'
  have hstart : Endpoint.start far = (.greeting far o', []) := by
    simp only [Endpoint.start, hfarSide, o']
  rw [TogetherAfter, Pair.start, effectsOn_append, effectsOn_append, hnear, hfar, hstart]
  simp only [effectsOn_map_self, effectsOn_map_of_ne client_ne_server, List.map_nil,
    List.nil_append]
  rcases start_client hnearSide with ⟨error, hfair, hstart⟩ | hstart
  · rw [hstart]
    have alone := noteFar_alone (.greeting far o') true
    exact ⟨near.connection o, _, [], [], .clientRefused hfair alone _ _ [],
      facing.note true false⟩
  · rw [hstart, hnearVersion]
    have stage := Linked.greeting hnearSide hfarSide hfarVersion o o'
    exact ⟨near.connection o, far.connection o', [], [], stage, facing⟩

/-- The ends of a pair stay together, in whatever order they take their turns. -/
theorem TogetherAfter.run {t : List (Side × Effect)} (h : TogetherAfter service version p t)
    (turns : List (Side × Turn)) :
    TogetherAfter service version (p.run turns).1 (t ++ (p.run turns).2) :=
  runSteps_trace_invariant Pair.step (P := TogetherAfter service version)
    (fun _ _ input hp => hp.step input) h turns

end Pair

end DuplexRpc
