import DuplexRpc.Proofs.Pair.Correlation

/-!
# The handshake

Two ends agree on whether they have the same version, in whatever order they take their
turns. Up to its last step the handshake is a matter of three texts, and what has happened
tells how far it has come: the version of the client has been sent, the server has accepted
or rejected it, and the client has read the answer. An end that has been accepted may serve
and call before the other one knows of it, but whatever it writes stands behind its answer.

Nothing is assumed about the versions themselves. They may well be one of the answers.
-/

namespace DuplexRpc

/-- Whether an end can write and read a text of the handshake. -/
def Setup.Admits {σ : Type} (setup : Setup σ) (text : String) : Prop :=
  (Text.utf8 text).length ≤ setup.config.maxFrame

namespace Endpoint

variable {σ : Type} {setup : Setup σ}

def isConcluded : Endpoint σ → Bool
  | .greeting .. => false
  | _ => true

theorem isConcluded_step {e : Endpoint σ} (h : e.isConcluded = true) (event : Event) :
    (e.step event).1.isConcluded = true := by
  cases e with
  | greeting setup outlet => cases h
  | connected c => rfl
  | refused error => rfl

theorem isConcluded_noteFar {e : Endpoint σ} (h : e.isConcluded = true) (isGone : Bool) :
    (e.noteFar isGone).isConcluded = true := by
  cases isGone with
  | false => exact h
  | true => exact isConcluded_step h .farGone

/-! ### One text of the handshake -/

section

variable {text : String} (h : setup.Admits text) (isOpen : Bool)
include h

theorem greet_server (hside : setup.side = .server) :
    greet setup ⟨setup.config.maxFrame, isOpen⟩
        (Framing.receive setup.config.maxFrame (Text.utf8 text)) =
      accept setup ⟨setup.config.maxFrame, isOpen⟩ text := by
  rw [Framing.receive, if_neg (Nat.not_lt.mpr h)]
  simp only [greet, Text.ofUtf8?_utf8, hside]

theorem greet_client (hside : setup.side = .client) :
    greet setup ⟨setup.config.maxFrame, isOpen⟩
        (Framing.receive setup.config.maxFrame (Text.utf8 text)) =
      conclude setup ⟨setup.config.maxFrame, isOpen⟩ text := by
  rw [Framing.receive, if_neg (Nat.not_lt.mpr h)]
  simp only [greet, Text.ofUtf8?_utf8, hside]

end

theorem refuse?_of_admits {text : String} (h : setup.Admits text) :
    (⟨setup.config.maxFrame, true⟩ : Outlet).refuse? (Text.utf8 text) = none := by
  rw [Outlet.refuse?, if_neg (Nat.not_lt.mpr h), if_pos rfl]

theorem accept_same (h : setup.Admits acceptance) :
    accept setup ⟨setup.config.maxFrame, true⟩ setup.config.version =
      (connect setup ⟨setup.config.maxFrame, true⟩, [.greeted acceptance, .opened]) := by
  simp only [accept, if_true, refuse?_of_admits h]

theorem accept_different {received : String} (h : setup.Admits rejection)
    (different : received ≠ setup.config.version) :
    accept setup ⟨setup.config.maxFrame, true⟩ received =
      (.refused (.versionMismatch setup.config.version received),
        [.greeted rejection, .refused (.versionMismatch setup.config.version received)]) := by
  simp only [accept, if_neg different, refuse?_of_admits h, refuse, List.singleton_append]

theorem conclude_acceptance (outlet : Outlet) :
    conclude setup outlet acceptance = (connect setup outlet, [.opened]) :=
  if_pos rfl

theorem conclude_rejection (outlet : Outlet) :
    conclude setup outlet rejection = refuse (.handshakeRejected setup.config.version) := by
  rw [conclude, if_neg (by decide), if_pos rfl]

end Endpoint

namespace Pair

variable {σ τ : Type} {client : Setup σ} {server : Setup τ} {p : Pair σ τ}
variable {t : List (Side × Effect)}

/-- Whether the version of the client and both answers fit the frames of both ends. -/
def AdmitHandshake (client : Setup σ) (server : Setup τ) : Prop :=
  ∀ text ∈ [client.config.version, Endpoint.acceptance, Endpoint.rejection],
    client.Admits text ∧ server.Admits text

namespace AdmitHandshake

variable (h : AdmitHandshake client server)
include h

theorem version : server.Admits client.config.version :=
  (h _ List.mem_cons_self).2

theorem acceptance : client.Admits Endpoint.acceptance ∧ server.Admits Endpoint.acceptance :=
  h _ (List.mem_cons_of_mem _ List.mem_cons_self)

theorem rejection : client.Admits Endpoint.rejection ∧ server.Admits Endpoint.rejection :=
  h _ (List.mem_cons_of_mem _ (List.mem_cons_of_mem _ List.mem_cons_self))

/-! What an end makes of the one text that it reads -/

theorem greet_same (hside : server.side = .server)
    (same : client.config.version = server.config.version) :
    Endpoint.greet server ⟨server.config.maxFrame, true⟩
        (Framing.receive server.config.maxFrame (Text.utf8 client.config.version)) =
      (Endpoint.connect server ⟨server.config.maxFrame, true⟩,
        [.greeted Endpoint.acceptance, .opened]) := by
  rw [Endpoint.greet_server h.version true hside, same]
  exact Endpoint.accept_same h.acceptance.2

theorem greet_different (hside : server.side = .server)
    (different : client.config.version ≠ server.config.version) :
    Endpoint.greet server ⟨server.config.maxFrame, true⟩
        (Framing.receive server.config.maxFrame (Text.utf8 client.config.version)) =
      (.refused (.versionMismatch server.config.version client.config.version),
        [.greeted Endpoint.rejection,
          .refused (.versionMismatch server.config.version client.config.version)]) := by
  rw [Endpoint.greet_server h.version true hside]
  exact Endpoint.accept_different h.rejection.2 different

theorem greet_acceptance (hside : client.side = .client) (isOpen : Bool) :
    Endpoint.greet client ⟨client.config.maxFrame, isOpen⟩
        (Framing.receive client.config.maxFrame (Text.utf8 Endpoint.acceptance)) =
      (Endpoint.connect client ⟨client.config.maxFrame, isOpen⟩, [.opened]) := by
  rw [Endpoint.greet_client h.acceptance.1 isOpen hside]
  exact Endpoint.conclude_acceptance _

theorem greet_rejection (hside : client.side = .client) (isOpen : Bool) :
    Endpoint.greet client ⟨client.config.maxFrame, isOpen⟩
        (Framing.receive client.config.maxFrame (Text.utf8 Endpoint.rejection)) =
      Endpoint.refuse (.handshakeRejected client.config.version) := by
  rw [Endpoint.greet_client h.rejection.1 isOpen hside]
  exact Endpoint.conclude_rejection _

end AdmitHandshake

def accepting (client : Setup σ) : List (Side × Effect) :=
  [(.client, .greeted client.config.version), (.server, .greeted Endpoint.acceptance),
    (.server, .opened)]

def rejecting (client : Setup σ) (server : Setup τ) : List (Side × Effect) :=
  [(.client, .greeted client.config.version), (.server, .greeted Endpoint.rejection),
    (.server, .refused (.versionMismatch server.config.version client.config.version))]

/-- What happens in a handshake that fails, from its beginning to its end. -/
def parting (client : Setup σ) (server : Setup τ) : List (Side × Effect) :=
  rejecting client server ++ [(.client, .refused (.handshakeRejected client.config.version))]

/-- How far the handshake of a pair has come, with all that has happened. -/
inductive Handshake (client : Setup σ) (server : Setup τ) :
    Pair σ τ → List (Side × Effect) → Prop
  /-- The client has sent its version. -/
  | sent : Handshake client server
      { client := .greeting client ⟨client.config.maxFrame, true⟩
        server := .greeting server ⟨server.config.maxFrame, true⟩
        toClient := []
        toServer := [Text.utf8 client.config.version] }
      [(.client, .greeted client.config.version)]
  /-- The server has accepted it and serves, but the client has not read that yet. -/
  | accepted (same : client.config.version = server.config.version) (isOpen : Bool)
      (b : Connection τ) (toClient toServer : List Bytes) {served : List Effect}
      (kinded : Trace.Kinded served) : Handshake client server
      { client := .greeting client ⟨client.config.maxFrame, isOpen⟩
        server := .connected b
        toClient := Text.utf8 Endpoint.acceptance :: toClient
        toServer := toServer }
      (accepting client ++ served.map (.server, ·))
  /-- Both ends serve. -/
  | met (same : client.config.version = server.config.version) (a : Connection σ)
      (b : Connection τ) (toClient toServer : List Bytes) {served : List Effect}
      (kinded : Trace.Kinded served) {later : List (Side × Effect)}
      (kinded_later : ∀ x ∈ later, x.2.Kinded) : Handshake client server
      { client := .connected a, server := .connected b, toClient, toServer }
      (accepting client ++ served.map (.server, ·) ++ (.client, .opened) :: later)
  /-- The server has rejected it, but the client has not read that yet. -/
  | rejected (different : client.config.version ≠ server.config.version) (isOpen : Bool) :
      Handshake client server
      { client := .greeting client ⟨client.config.maxFrame, isOpen⟩
        server := .refused (.versionMismatch server.config.version client.config.version)
        toClient := [Text.utf8 Endpoint.rejection]
        toServer := [] }
      (rejecting client server)
  /-- Both ends have given up. -/
  | parted (different : client.config.version ≠ server.config.version) : Handshake client server
      { client := .refused (.handshakeRejected client.config.version)
        server := .refused (.versionMismatch server.config.version client.config.version)
        toClient := []
        toServer := [] }
      (parting client server)

/-! ### Turns -/

/-- A client that waits for the answer does nothing but read. -/
theorem stepClient_idle {outlet : Outlet} (h : p.client = .greeting client outlet) {turn : Turn}
    (hturn : turn ≠ .read) : p.stepClient turn = (p, []) := by
  cases hevent : turn.event? (p.arrival .client).1 with
  | none => exact stepClient_of_none hevent
  | some event =>
      have idle : (Endpoint.greeting client outlet).step event = (.greeting client outlet, []) :=
        step_greeting hturn hevent
      rw [← h] at idle
      rw [stepClient_of_event hevent, Pair.afterClient, idle, if_neg hturn]
      simp only [h, Endpoint.isOver, written, List.filterMap_nil, List.append_nil]
      rw [← h]
      rfl

theorem stepServer_idle {outlet : Outlet} (h : p.server = .greeting server outlet) {turn : Turn}
    (hturn : turn ≠ .read) : p.stepServer turn = (p, []) :=
  stepServer_of_swap (stepClient_idle h hturn)

/-- A client that is over is not moved by anything. -/
theorem stepClient_refused (server : Endpoint τ) (error : ProtocolError)
    (toClient toServer : List Bytes) (turn : Turn) :
    ∃ isGone, (⟨.refused error, server, toClient, toServer⟩ : Pair σ τ).stepClient turn =
      (⟨.refused error, server.noteFar isGone, toClient, toServer⟩, []) := by
  generalize hp : (⟨.refused error, server, toClient, toServer⟩ : Pair σ τ) = p
  cases hevent : turn.event? (p.arrival .client).1 with
  | none => exact ⟨false, by rw [stepClient_of_none hevent, ← hp]; rfl⟩
  | some event =>
      subst hp
      have hturn := not_read_of_refused hevent
      refine ⟨true, ?_⟩
      rw [stepClient_of_event hevent, Pair.afterClient, if_neg hturn]
      simp only [Endpoint.step, Endpoint.isOver, written, List.filterMap_nil, List.append_nil]

theorem stepServer_refused (client : Endpoint σ) (error : ProtocolError)
    (toClient toServer : List Bytes) (turn : Turn) :
    ∃ isGone, (⟨client, .refused error, toClient, toServer⟩ : Pair σ τ).stepServer turn =
      (⟨client.noteFar isGone, .refused error, toClient, toServer⟩, []) := by
  obtain ⟨isGone, step⟩ := stepClient_refused (σ := τ) client error toServer toClient turn
  exact ⟨isGone, stepServer_of_swap (p := ⟨client, .refused error, toClient, toServer⟩) step⟩

/-- The client reads the answer. -/
theorem stepClient_reads {outlet : Outlet} {payload : Bytes} {rest : List Bytes}
    (waiting : p.client = .greeting client outlet) (coming : p.toClient = payload :: rest)
    {e : Endpoint σ} {effects : List Effect}
    (greeted : Endpoint.greet client outlet (Framing.receive outlet.limit payload) =
      (e, effects)) :
    p.stepClient .read =
      ({ client := e, server := p.server.noteFar e.isOver, toClient := rest,
         toServer := p.toServer ++ written effects }, effects) := by
  have delivered : p.arrival .client = (some (Framing.receive outlet.limit payload), rest) := by
    simp only [Pair.arrival, deliver, waiting, Endpoint.reads, Endpoint.limit, coming, if_true]
  have read : p.client.step (.arrival (Framing.receive outlet.limit payload)) = (e, effects) := by
    rw [waiting]
    exact greeted
  have hevent : Turn.event? (p.arrival .client).1 .read =
      some (.arrival (Framing.receive outlet.limit payload)) := by
    rw [delivered]
    rfl
  rw [stepClient_of_event hevent, Pair.afterClient, delivered, read, if_pos rfl]

/-- The server reads the version. -/
theorem stepServer_reads {outlet : Outlet} {payload : Bytes} {rest : List Bytes}
    (waiting : p.server = .greeting server outlet) (coming : p.toServer = payload :: rest)
    {e : Endpoint τ} {effects : List Effect}
    (greeted : Endpoint.greet server outlet (Framing.receive outlet.limit payload) =
      (e, effects)) :
    p.stepServer .read =
      ({ client := p.client.noteFar e.isOver, server := e,
         toClient := p.toClient ++ written effects, toServer := rest }, effects) :=
  stepServer_of_swap (stepClient_reads waiting coming greeted)

/-- A client that serves goes on to serve, and what it writes stands behind what it has written. -/
theorem stepClient_connected (a : Connection σ) (server : Endpoint τ)
    (toClient toServer : List Bytes) (turn : Turn) :
    ∃ a' isGone left more effects,
      (Pair.mk (.connected a) server toClient toServer).stepClient turn =
        (⟨.connected a', server.noteFar isGone, left, toServer ++ more⟩, effects) ∧
      Trace.Kinded effects := by
  generalize hp : Pair.mk (.connected a) server toClient toServer = p
  cases hevent : turn.event? (p.arrival .client).1 with
  | none =>
      refine ⟨a, false, toClient, [], [], ?_, .nil⟩
      rw [stepClient_of_none hevent, ← hp, List.append_nil]
      rfl
  | some event =>
      subst hp
      exact ⟨_, _, _, _, _, stepClient_of_event hevent, a.kinded_step event⟩

theorem stepServer_connected (client : Endpoint σ) (b : Connection τ)
    (toClient toServer : List Bytes) (turn : Turn) :
    ∃ b' isGone left more effects,
      (Pair.mk client (.connected b) toClient toServer).stepServer turn =
        (⟨client.noteFar isGone, .connected b', toClient ++ more, left⟩, effects) ∧
      Trace.Kinded effects := by
  obtain ⟨b', isGone, left, more, effects, step, kinded⟩ :=
    stepClient_connected b client toServer toClient turn
  exact ⟨b', isGone, left, more, effects,
    stepServer_of_swap (p := ⟨client, .connected b, toClient, toServer⟩) step, kinded⟩

theorem kinded_map {t : List Effect} (h : Trace.Kinded t) (side : Side) :
    ∀ x ∈ t.map (side, ·), x.2.Kinded := by
  intro x hmem
  obtain ⟨effect, inside, rfl⟩ := List.mem_map.mp hmem
  exact h effect inside

theorem Handshake.stepClient (h : Handshake client server p t)
    (admits : AdmitHandshake client server) (hside : client.side = .client) (turn : Turn) :
    Handshake client server (p.stepClient turn).1
      (t ++ (p.stepClient turn).2.map (.client, ·)) := by
  cases h with
  | sent =>
      by_cases hturn : turn = .read
      · subst hturn
        exact .sent
      · rw [stepClient_idle rfl hturn]
        exact .sent
  | accepted same isOpen b toClient toServer kinded =>
      by_cases hturn : turn = .read
      · subst hturn
        rw [stepClient_reads rfl rfl (admits.greet_acceptance hside isOpen)]
        exact .met same _ b toClient _ kinded nofun
      · rw [stepClient_idle rfl hturn, List.map_nil, List.append_nil]
        exact .accepted same isOpen b toClient toServer kinded
  | met same a b toClient toServer kinded kinded_later =>
      obtain ⟨a', isGone, left, more, effects, step, kinded_now⟩ :=
        stepClient_connected a (.connected b) toClient toServer turn
      rw [step, Endpoint.noteFar_connected, List.append_assoc, List.cons_append]
      refine .met same a' _ left _ kinded fun x hmem => ?_
      obtain hmem | hmem := List.mem_append.mp hmem
      · exact kinded_later x hmem
      · exact kinded_map kinded_now .client x hmem
  | rejected different isOpen =>
      by_cases hturn : turn = .read
      · subst hturn
        rw [stepClient_reads rfl rfl (admits.greet_rejection hside isOpen)]
        exact .parted different
      · rw [stepClient_idle rfl hturn, List.map_nil, List.append_nil]
        exact .rejected different isOpen
  | parted different =>
      obtain ⟨isGone, step⟩ := stepClient_refused (σ := σ) (τ := τ) (.refused _) _ [] [] turn
      rw [step, Endpoint.noteFar_refused, List.map_nil, List.append_nil]
      exact .parted different

theorem Handshake.stepServer (h : Handshake client server p t)
    (admits : AdmitHandshake client server) (hside : server.side = .server) (turn : Turn) :
    Handshake client server (p.stepServer turn).1
      (t ++ (p.stepServer turn).2.map (.server, ·)) := by
  cases h with
  | sent =>
      by_cases hturn : turn = .read
      · subst hturn
        by_cases same : client.config.version = server.config.version
        · rw [stepServer_reads rfl rfl (admits.greet_same hside same)]
          exact .accepted same _ _ [] [] .nil
        · rw [stepServer_reads rfl rfl (admits.greet_different hside same)]
          exact .rejected same _
      · rw [stepServer_idle rfl hturn]
        exact .sent
  | accepted same isOpen b toClient toServer kinded =>
      obtain ⟨b', isGone, left, more, effects, step, kinded_now⟩ :=
        stepServer_connected (.greeting client ⟨client.config.maxFrame, isOpen⟩) b
          (Text.utf8 Endpoint.acceptance :: toClient) toServer turn
      rw [step, Endpoint.noteFar_greeting, List.cons_append, List.append_assoc, ← List.map_append]
      exact .accepted same _ b' _ left (kinded.append kinded_now)
  | met same a b toClient toServer kinded kinded_later =>
      obtain ⟨b', isGone, left, more, effects, step, kinded_now⟩ :=
        stepServer_connected (.connected a) b toClient toServer turn
      rw [step, Endpoint.noteFar_connected, List.append_assoc, List.cons_append]
      refine .met same _ b' _ left kinded fun x hmem => ?_
      obtain hmem | hmem := List.mem_append.mp hmem
      · exact kinded_later x hmem
      · exact kinded_map kinded_now .server x hmem
  | rejected different isOpen =>
      obtain ⟨isGone, step⟩ := stepServer_refused (σ := σ) (τ := τ)
        (.greeting client ⟨client.config.maxFrame, isOpen⟩) _ [_] [] turn
      rw [step, Endpoint.noteFar_greeting, List.map_nil, List.append_nil]
      exact .rejected different _
  | parted different =>
      obtain ⟨isGone, step⟩ := stepServer_refused (σ := σ) (τ := τ) (.refused _) _ [] [] turn
      rw [step, Endpoint.noteFar_refused, List.map_nil, List.append_nil]
      exact .parted different

/-! ### Runs -/

theorem Handshake.step (h : Handshake client server p t) (admits : AdmitHandshake client server)
    (hclient : client.side = .client) (hserver : server.side = .server) (input : Side × Turn) :
    Handshake client server (p.step input).1 (t ++ (p.step input).2) := by
  obtain ⟨side, turn⟩ := input
  cases side with
  | client => exact h.stepClient admits hclient turn
  | server => exact h.stepServer admits hserver turn

theorem Handshake.run (h : Handshake client server p t) (admits : AdmitHandshake client server)
    (hclient : client.side = .client) (hserver : server.side = .server)
    (turns : List (Side × Turn)) :
    Handshake client server (p.run turns).1 (t ++ (p.run turns).2) :=
  runSteps_trace_invariant Pair.step (P := Handshake client server)
    (fun _ _ input hp => hp.step admits hclient hserver input) h turns

/-! ### Getting to the end -/

theorem isConcluded_step (p : Pair σ τ) (input : Side × Turn) :
    (p.client.isConcluded = true → (p.step input).1.client.isConcluded = true) ∧
      (p.server.isConcluded = true → (p.step input).1.server.isConcluded = true) := by
  obtain ⟨side, turn⟩ := input
  cases side with
  | client =>
      cases hevent : turn.event? (p.arrival .client).1 with
      | none =>
          rw [Pair.step, stepClient_of_none hevent]
          exact ⟨id, id⟩
      | some event =>
          rw [Pair.step, stepClient_of_event hevent]
          exact ⟨fun done => Endpoint.isConcluded_step done event,
            fun done => Endpoint.isConcluded_noteFar done _⟩
  | server =>
      cases hevent : turn.event? (p.arrival .server).1 with
      | none =>
          rw [Pair.step, stepServer_of_none hevent]
          exact ⟨id, id⟩
      | some event =>
          rw [Pair.step, stepServer_of_event hevent]
          exact ⟨fun done => Endpoint.isConcluded_noteFar done _,
            fun done => Endpoint.isConcluded_step done event⟩

theorem isConcluded_run (p : Pair σ τ) (turns : List (Side × Turn)) :
    (p.client.isConcluded = true → (p.run turns).1.client.isConcluded = true) ∧
      (p.server.isConcluded = true → (p.run turns).1.server.isConcluded = true) := by
  induction turns generalizing p with
  | nil => exact ⟨id, id⟩
  | cons input rest ih =>
      have now := isConcluded_step p input
      have later := ih (p.step input).1
      exact ⟨fun done => later.1 (now.1 done), fun done => later.2 (now.2 done)⟩

/-- The server has come to its decision as soon as it has read. -/
theorem Handshake.server_read (h : Handshake client server p t)
    (admits : AdmitHandshake client server) (hserver : server.side = .server) :
    (p.stepServer .read).1.server.isConcluded = true := by
  cases done : p.server.isConcluded with
  | true => exact (isConcluded_step p (.server, .read)).2 done
  | false =>
      cases h with
      | sent =>
          by_cases same : client.config.version = server.config.version
          · rw [stepServer_reads rfl rfl (admits.greet_same hserver same)]
            rfl
          · rw [stepServer_reads rfl rfl (admits.greet_different hserver same)]
            rfl
      | accepted => cases done
      | met => cases done
      | rejected => cases done
      | parted => cases done

/-- The client has come to its decision as soon as it has read what the server has decided. -/
theorem Handshake.client_read (h : Handshake client server p t)
    (admits : AdmitHandshake client server) (hclient : client.side = .client)
    (answered : p.server.isConcluded = true) :
    (p.stepClient .read).1.client.isConcluded = true := by
  cases done : p.client.isConcluded with
  | true => exact (isConcluded_step p (.client, .read)).1 done
  | false =>
      cases h with
      | sent => cases answered
      | accepted =>
          rw [stepClient_reads rfl rfl (admits.greet_acceptance hclient _)]
          rfl
      | met => cases done
      | rejected =>
          rw [stepClient_reads rfl rfl (admits.greet_rejection hclient _)]
          rfl
      | parted => cases done

theorem Handshake.server_isConcluded (h : Handshake client server p t)
    (admits : AdmitHandshake client server) (hclient : client.side = .client)
    (hserver : server.side = .server) {turns : List (Side × Turn)}
    (reads : (.server, .read) ∈ turns) : (p.run turns).1.server.isConcluded = true := by
  induction turns generalizing p t with
  | nil => cases reads
  | cons input rest ih =>
      obtain rfl | reads := List.mem_cons.mp reads
      · exact (isConcluded_run _ rest).2 (h.server_read admits hserver)
      · exact ih (h.step admits hclient hserver input) reads

theorem Handshake.client_isConcluded (h : Handshake client server p t)
    (admits : AdmitHandshake client server) (hclient : client.side = .client)
    (hserver : server.side = .server) (answered : p.server.isConcluded = true)
    {turns : List (Side × Turn)} (reads : (.client, .read) ∈ turns) :
    (p.run turns).1.client.isConcluded = true := by
  induction turns generalizing p t with
  | nil => cases reads
  | cons input rest ih =>
      obtain rfl | reads := List.mem_cons.mp reads
      · exact (isConcluded_run _ rest).1 (h.client_read admits hclient answered)
      · exact ih (h.step admits hclient hserver input) ((isConcluded_step p input).2 answered) reads

theorem Handshake.isConcluded (h : Handshake client server p t)
    (admits : AdmitHandshake client server) (hclient : client.side = .client)
    (hserver : server.side = .server) {turns : List (Side × Turn)}
    (reads : [(.server, .read), (.client, .read)].Sublist turns) :
    (p.run turns).1.client.isConcluded = true ∧ (p.run turns).1.server.isConcluded = true := by
  obtain ⟨first, rest, rfl, read_server, reads⟩ := List.cons_sublist_iff.mp reads
  have read_client := List.singleton_sublist.mp reads
  have answered := h.server_isConcluded admits hclient hserver read_server
  rw [Pair.run, runSteps_append]
  exact ⟨(h.run admits hclient hserver first).client_isConcluded admits hclient hserver answered
    read_client, (isConcluded_run _ rest).2 answered⟩

/-! ### What has happened -/

theorem notMem_of_kinded {t : List (Side × Effect)} (h : ∀ x ∈ t, x.2.Kinded) {side : Side}
    {effect : Effect} (greeting : effect.isGreeting = true) : (side, effect) ∉ t := by
  intro hmem
  have kinded : effect.Kinded := h _ hmem
  cases effect <;> first | exact kinded | cases greeting

theorem mem_accepting {rest : List (Side × Effect)} {side : Side} {error : ProtocolError}
    (h : (side, .refused error) ∈ accepting client ++ rest) : (side, .refused error) ∈ rest := by
  simpa [accepting] using h

/-- Behind the acceptance of the client there is nothing that would be the end of the handshake. -/
theorem Handshake.notMem_refused (h : Handshake client server p t)
    (same : client.config.version = server.config.version) (side : Side) (error : ProtocolError) :
    (side, .refused error) ∉ t := by
  intro hmem
  cases h with
  | sent => simp at hmem
  | accepted _ _ _ _ _ kinded =>
      exact notMem_of_kinded (kinded_map kinded .server) rfl (mem_accepting hmem)
  | met _ _ _ _ _ kinded kinded_later =>
      rw [List.append_assoc] at hmem
      obtain hmem | hmem := List.mem_append.mp (mem_accepting hmem)
      · exact notMem_of_kinded (kinded_map kinded .server) rfl hmem
      · obtain hmem | hmem := List.mem_cons.mp hmem
        · cases hmem
        · exact notMem_of_kinded kinded_later rfl hmem
  | rejected different => exact different same
  | parted different => exact different same

theorem Handshake.parting_of_different (h : Handshake client server p t)
    (different : client.config.version ≠ server.config.version) : t <+: parting client server := by
  cases h with
  | sent => exact ⟨_, rfl⟩
  | accepted same => exact absurd same different
  | met same => exact absurd same different
  | rejected _ _ => exact ⟨_, rfl⟩
  | parted _ => exact ⟨[], List.append_nil _⟩

theorem mem_parting {x : Side × Effect} (h : x ∈ parting client server) :
    x.2.isGreeting = true ∧ x.2 ≠ .opened := by
  simp only [parting, rejecting, List.cons_append, List.nil_append, List.mem_cons,
    List.not_mem_nil, or_false] at h
  obtain rfl | rfl | rfl | rfl := h <;> exact ⟨rfl, nofun⟩

/-- The client is not ready before the server has accepted it. -/
theorem Handshake.greeted_of_opened (h : Handshake client server p t)
    {before after : List (Side × Effect)} (opened : t = before ++ (.client, .opened) :: after) :
    (.server, .greeted Endpoint.acceptance) ∈ before := by
  have accepted : ∀ rest, accepting client ++ rest = before ++ (.client, .opened) :: after →
      (.server, .greeted Endpoint.acceptance) ∈ before := by
    intro rest happened
    cases before with
    | nil => cases happened
    | cons first before =>
        cases before with
        | nil => cases happened
        | cons second before =>
            obtain ⟨_, happened⟩ := List.cons.inj happened
            obtain ⟨rfl, _⟩ := List.cons.inj happened
            exact List.mem_cons_of_mem _ List.mem_cons_self
  have inside : (Side.client, Effect.opened) ∈ t := by
    rw [opened]
    exact List.mem_append_right _ List.mem_cons_self
  by_cases same : client.config.version = server.config.version
  · cases h with
    | sent => simp at inside
    | accepted => exact accepted _ opened
    | met => exact accepted _ ((List.append_assoc _ _ _).symm.trans opened)
    | rejected different => exact absurd same different
    | parted different => exact absurd same different
  · exact absurd rfl (mem_parting ((h.parting_of_different same).subset inside)).2

/-! ### Agreement -/

theorem AdmitHandshake.start (admits : AdmitHandshake client server)
    (hclient : client.side = .client) (hserver : server.side = .server) :
    Handshake client server
      (join (Endpoint.start client) (Endpoint.start server))
      ((Endpoint.start client).2.map (.client, ·) ++
        (Endpoint.start server).2.map (.server, ·)) := by
  have sent : Endpoint.start client = (.greeting client ⟨client.config.maxFrame, true⟩,
      [.greeted client.config.version]) := by
    have free := Endpoint.refuse?_of_admits (admits _ List.mem_cons_self).1
    simp only [Endpoint.start, hclient, free]
  have waiting : Endpoint.start server =
      (.greeting server ⟨server.config.maxFrame, true⟩, []) := by
    simp only [Endpoint.start, hserver]
  rw [sent, waiting]
  exact .sent

/-- What the two ends of a pair make of their versions. -/
structure Agreement (client : Setup σ) (server : Setup τ) (turns : List (Side × Turn))
    (p : Pair σ τ) (t : List (Side × Effect)) : Prop where
  /-- With one version neither end gives up, and both are ready as soon as the server and then the
  client have read. -/
  ready : client.config.version = server.config.version →
    (∀ side error, (side, .refused error) ∉ t) ∧
      ([(.server, .read), (.client, .read)].Sublist turns →
        (∃ a, p.client = .connected a) ∧ (∃ b, p.server = .connected b) ∧
          ∀ side, (side, .opened) ∈ t)
  /-- With different versions both ends give up as soon as they have read. -/
  refused : client.config.version ≠ server.config.version →
    [(.server, .read), (.client, .read)].Sublist turns →
      p.client = .refused (.handshakeRejected client.config.version) ∧
        p.server = .refused
          (.versionMismatch server.config.version client.config.version) ∧
        t = parting client server
  /-- No handler runs then, and no session is stopped, at whatever point the ends are. -/
  unserved : client.config.version ≠ server.config.version →
    t <+: parting client server ∧ ∀ side, (side, .opened) ∉ t ∧
      (∀ procedure args outcome, (side, .handled procedure args outcome) ∉ t) ∧
      ∀ error, (side, .stopped error) ∉ t
  /-- The client does not get ready before the server has accepted it. -/
  opened : ∀ {a}, p.client = .connected a → (.client, .opened) ∈ t
  order : ∀ {before after}, t = before ++ (.client, .opened) :: after →
    (.server, .greeted Endpoint.acceptance) ∈ before
  /-- One end is never ready while the other one fails. -/
  together : ∀ {side other error}, (side, .opened) ∈ t → (other, .refused error) ∉ t
  states : (∀ {a error}, p.client = .connected a → p.server ≠ .refused error) ∧
    ∀ {b error}, p.server = .connected b → p.client ≠ .refused error

theorem Handshake.unserved (h : Handshake client server p t)
    (different : client.config.version ≠ server.config.version) (side : Side) :
    (side, .opened) ∉ t ∧
      (∀ procedure args outcome, (side, .handled procedure args outcome) ∉ t) ∧
      ∀ error, (side, .stopped error) ∉ t := by
  have inside : ∀ {effect}, (side, effect) ∈ t → effect.isGreeting = true ∧ effect ≠ .opened :=
    fun hmem => mem_parting ((h.parting_of_different different).subset hmem)
  refine ⟨fun hmem => (inside hmem).2 rfl, fun procedure args outcome hmem => ?_,
    fun error hmem => ?_⟩
  · cases (inside hmem).1
  · cases (inside hmem).1

theorem Handshake.agreement (h : Handshake client server p t) {turns : List (Side × Turn)}
    (concluded : [(.server, .read), (.client, .read)].Sublist turns →
      p.client.isConcluded = true ∧ p.server.isConcluded = true) :
    Agreement client server turns p t where
  ready := by
    intro same
    refine ⟨h.notMem_refused same, fun reads => ?_⟩
    obtain ⟨done, _⟩ := concluded reads
    cases h with
    | sent => cases done
    | accepted => cases done
    | met _ a b =>
        refine ⟨⟨a, rfl⟩, ⟨b, rfl⟩, fun side => ?_⟩
        cases side with
        | client => exact List.mem_append_right _ List.mem_cons_self
        | server => simp [accepting]
    | rejected different => exact absurd same different
    | parted different => exact absurd same different
  refused := by
    intro different reads
    obtain ⟨done, _⟩ := concluded reads
    cases h with
    | sent => cases done
    | accepted => cases done
    | met same => exact absurd same different
    | rejected => cases done
    | parted => exact ⟨rfl, rfl, rfl⟩
  unserved different := ⟨h.parting_of_different different, h.unserved different⟩
  opened := by
    intro a connected
    cases h with
    | met => exact List.mem_append_right _ List.mem_cons_self
    | _ => cases connected
  order := h.greeted_of_opened
  together := by
    intro side other error opened refused
    by_cases same : client.config.version = server.config.version
    · exact h.notMem_refused same other error refused
    · exact (h.unserved same side).1 opened
  states := by
    refine ⟨fun {a error} connected refused => ?_, fun {b error} connected refused => ?_⟩
    · cases h with
      | rejected => cases connected
      | parted => cases connected
      | _ => cases refused
    · cases h with
      | accepted => cases refused
      | met => cases refused
      | _ => cases connected

/-- Two ends agree on their versions, in whatever order they take their turns, as long as the texts
of the handshake fit the frames of both. -/
theorem ends_agree_on_versions (admits : AdmitHandshake client server)
    (turns : List (Side × Turn)) :
    Agreement client server turns (play client server turns).1 (play client server turns).2 := by
  let near : Setup σ := { client with side := .client }
  let far : Setup τ := { server with side := .server }
  have admits : AdmitHandshake near far := admits
  have begun := admits.start rfl rfl
  have happened := begun.run admits rfl rfl turns
  have agreed := happened.agreement fun reads => begun.isConcluded admits rfl rfl reads
  exact ⟨agreed.ready, agreed.refused, agreed.unserved, agreed.opened, agreed.order,
    agreed.together, agreed.states⟩

def echoSetupOf (side : Side) (version : String) : Setup Unit :=
  { echoSetup side with config := { version } }

theorem ends_agree_on_versions_echo :
    AdmitHandshake (echoSetupOf .client "invalid") (echoSetupOf .server "good") ∧
      Agreement (echoSetupOf .client "invalid") (echoSetupOf .server "good") echoTurns
        (play (echoSetupOf .client "invalid") (echoSetupOf .server "good") echoTurns).1
        (play (echoSetupOf .client "invalid") (echoSetupOf .server "good") echoTurns).2 := by
  have admits : AdmitHandshake (echoSetupOf .client "invalid") (echoSetupOf .server "good") := by
    unfold AdmitHandshake Setup.Admits
    decide +kernel
  exact ⟨admits, ends_agree_on_versions admits echoTurns⟩

end Pair

end DuplexRpc
