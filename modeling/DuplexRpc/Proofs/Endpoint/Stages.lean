import DuplexRpc.Endpoint
import DuplexRpc.Proofs.Trace

/-!
# Stages of an endpoint

The first thing that an endpoint reads decides its life. Until then it waits, and no peer
is there to do anything. Afterwards it is a connection, and all that happens is what
happens on the connection, or it has given up and nothing happens any more.
-/

namespace DuplexRpc

def Event.firstRead? (events : List Event) : Option Arrival := events.findSome? arrival?

def Effect.isGreeting : Effect → Bool
  | greeted _ | opened | refused _ => true
  | _ => false

/-- The connection that an end will be after the handshake. -/
abbrev Setup.connection {σ : Type} (setup : Setup σ) (outlet : Outlet) : Connection σ :=
  .start setup.session setup.service setup.side outlet setup.state

namespace Endpoint

variable {σ : Type} {setup : Setup σ}

/-- An endpoint from its beginning, after some events, and all that has happened at it. -/
def life (setup : Setup σ) (events : List Event) : Endpoint σ × List Effect :=
  let (e, begun) := start setup
  let (e, later) := e.run events
  (e, begun ++ later)

/-- The way out after events of which none was read: it is open until the far end is gone. -/
def outletAfter (setup : Setup σ) (events : List Event) : Outlet :=
  { limit := setup.config.maxFrame, isOpen := !events.contains .farGone }

/-- What an endpoint writes before it reads: the client sends its version. -/
def hail (setup : Setup σ) : List Effect :=
  match setup.side with
  | .server => []
  | .client => [.greeted setup.config.version]

/-- What has to be read for a connection to be opened: the version, or that it was accepted. -/
def watchword (setup : Setup σ) : String :=
  match setup.side with
  | .server => setup.config.version
  | .client => acceptance

/-- What an endpoint writes when it opens the connection: the server accepts. -/
def welcome (setup : Setup σ) : List Effect :=
  match setup.side with
  | .server => [.greeted acceptance]
  | .client => []

/-- Why an endpoint gives up on what it reads first, other than for a version. -/
inductive Baffles (setup : Setup σ) (outlet : Outlet) : Arrival → ProtocolError → Prop
  | closed : Baffles setup outlet .closed (.invalidHandshake .closed)
  | fault (fault : TransportFault) : Baffles setup outlet (.fault fault) (.transport fault)
  | notText {payload : Bytes} (h : Text.ofUtf8? payload = none) :
      Baffles setup outlet (.frame payload) (.invalidHandshake .notText)
  /-- The server cannot send that it accepts. -/
  | unsent {fault : TransportFault} (hside : setup.side = .server)
      (h : outlet.refuse? (Text.utf8 acceptance) = some fault) :
      Baffles setup outlet (.frame (Text.utf8 setup.config.version)) (.transport fault)
  | rejected (hside : setup.side = .client) :
      Baffles setup outlet (.frame (Text.utf8 rejection))
        (.handshakeRejected setup.config.version)
  | unexpected {reply : String} (hside : setup.side = .client) (ha : reply ≠ acceptance)
      (hr : reply ≠ rejection) :
      Baffles setup outlet (.frame (Text.utf8 reply))
        (.invalidHandshake (.unexpectedReply reply))

/-- What the first thing that is read can lead to. -/
inductive Greets (setup : Setup σ) (outlet : Outlet) : Arrival → Endpoint σ × List Effect → Prop
  | opened (h : setup.side = .server → outlet.refuse? (Text.utf8 acceptance) = none) :
      Greets setup outlet (.frame (Text.utf8 (watchword setup)))
        (.connected (setup.connection outlet), welcome setup ++ [.opened])
  /-- The server reads another version than its own. It sends so if it can. -/
  | mismatch {version : String} (hside : setup.side = .server)
      (h : version ≠ setup.config.version) :
      Greets setup outlet (.frame (Text.utf8 version))
        (.refused (.versionMismatch setup.config.version version),
          (if outlet.refuse? (Text.utf8 rejection) = none then [.greeted rejection] else []) ++
            [.refused (.versionMismatch setup.config.version version)])
  | baffled {arrival : Arrival} {error : ProtocolError}
      (h : Baffles setup outlet arrival error) :
      Greets setup outlet arrival (.refused error, [.refused error])

theorem greets (setup : Setup σ) (outlet : Outlet) (arrival : Arrival) :
    Greets setup outlet arrival (greet setup outlet arrival) := by
  cases arrival with
  | closed => exact .baffled .closed
  | fault fault => exact .baffled (.fault fault)
  | frame payload =>
      rw [greet]
      cases htext : Text.ofUtf8? payload with
      | none => exact .baffled (.notText htext)
      | some text =>
          obtain rfl := Text.ofUtf8?_eq_some_iff.mp htext
          have opens := @Greets.opened _ setup outlet
          cases hside : setup.side with
          | server =>
              simp only [watchword, welcome, hside] at opens
              simp only [accept]
              split
              next hversion =>
                subst hversion
                split
                next hrefuse => exact opens fun _ => hrefuse
                next fault hrefuse => exact .baffled (.unsent hside hrefuse)
              next hversion =>
                have refuses := @Greets.mismatch _ setup outlet text hside hversion
                cases hrefuse : outlet.refuse? (Text.utf8 rejection) <;>
                  simpa [hrefuse, refuse] using refuses
          | client =>
              simp only [watchword, welcome, hside] at opens
              simp only [conclude]
              split
              next ha =>
                subst ha
                exact opens nofun
              next ha =>
                split
                next hr =>
                  subst hr
                  exact .baffled (.rejected hside)
                next hr => exact .baffled (.unexpected hside ha hr)

/-! ### Runs -/

theorem run_cons (e : Endpoint σ) (event : Event) (rest : List Event) :
    e.run (event :: rest) =
      (((e.step event).1.run rest).1, (e.step event).2 ++ ((e.step event).1.run rest).2) :=
  runSteps_cons step e event rest

theorem run_append (e : Endpoint σ) (events later : List Event) :
    e.run (events ++ later) =
      (((e.run events).1.run later).1, (e.run events).2 ++ ((e.run events).1.run later).2) :=
  runSteps_append step e events later

theorem run_refused (error : ProtocolError) (events : List Event) :
    (refused error : Endpoint σ).run events = (.refused error, []) := by
  induction events with
  | nil => rfl
  | cons event rest ih => simp only [run_cons, step, ih, List.append_nil]

theorem run_connected (c : Connection σ) (events : List Event) :
    (connected c).run events = (.connected (c.run events).1, (c.run events).2) := by
  induction events generalizing c with
  | nil => rfl
  | cons event rest ih =>
      simp only [run_cons, step, ih]
      rfl

/-- While nothing is read, an endpoint that waits takes no notice but of the far end's going. -/
theorem run_greeting (setup : Setup σ) (outlet : Outlet) {events : List Event}
    (h : ∀ event ∈ events, event.arrival? = none) :
    (greeting setup outlet).run events =
      (.greeting setup { outlet with isOpen := outlet.isOpen && !events.contains .farGone },
        []) := by
  induction events generalizing outlet with
  | nil => simp [run]
  | cons event rest ih =>
      have unread : ∀ other ∈ rest, other.arrival? = none :=
        fun other hmem => h other (List.mem_cons_of_mem _ hmem)
      rw [run_cons]
      cases event with
      | arrival arrival => cases h (.arrival arrival) List.mem_cons_self
      | farGone =>
          simp only [step, ih _ unread, List.append_nil]
          simp
      | _ =>
          simp only [step, ih _ unread, List.append_nil]
          simp

/-! ### Stages -/

/-- What an endpoint is after some events, and what has happened at it. -/
inductive Stage (setup : Setup σ) : List Event → Endpoint σ → List Effect → Prop
  /-- The client could not send its version. -/
  | mute {fault : TransportFault} (hside : setup.side = .client) (events : List Event) :
      Stage setup events (.refused (.transport fault)) [.refused (.transport fault)]
  | waiting {events : List Event} (h : ∀ event ∈ events, event.arrival? = none) :
      Stage setup events (.greeting setup (outletAfter setup events)) (hail setup)
  | refused {before : List Event} {arrival : Arrival} {error : ProtocolError}
      {effects : List Effect} (hbefore : ∀ event ∈ before, event.arrival? = none)
      (hgreets : Greets setup (outletAfter setup before) arrival (.refused error, effects))
      (after : List Event) :
      Stage setup (before ++ .arrival arrival :: after) (.refused error) (hail setup ++ effects)
  | opened {before : List Event} (hbefore : ∀ event ∈ before, event.arrival? = none)
      (after : List Event) :
      Stage setup (before ++ .arrival (.frame (Text.utf8 (watchword setup))) :: after)
        (.connected ((setup.connection (outletAfter setup before)).run after).1)
        (hail setup ++ welcome setup ++
          .opened :: ((setup.connection (outletAfter setup before)).run after).2)

/-- The events fall into those before the first arrival and those after it. -/
theorem split_of_firstRead (events : List Event) :
    (∀ event ∈ events, event.arrival? = none) ∨
      ∃ before arrival after, events = before ++ .arrival arrival :: after ∧
        ∀ event ∈ before, event.arrival? = none := by
  induction events with
  | nil => exact .inl nofun
  | cons event rest ih =>
      cases hread : event.arrival? with
      | some arrival =>
          obtain rfl : event = .arrival arrival := by
            cases event with
            | arrival other => exact congrArg _ (Option.some.inj hread)
            | _ => cases hread
          exact .inr ⟨[], arrival, rest, rfl, nofun⟩
      | none =>
          have unread : ∀ {events : List Event}, (∀ other ∈ events, other.arrival? = none) →
              ∀ other ∈ event :: events, other.arrival? = none := by
            intro events h other hmem
            rcases List.mem_cons.mp hmem with rfl | hmem
            · exact hread
            · exact h other hmem
          rcases ih with h | ⟨before, arrival, after, rfl, h⟩
          · exact .inl (unread h)
          · exact .inr ⟨event :: before, arrival, after, rfl, unread h⟩

/-- An endpoint begins to wait, unless the client cannot send its version. -/
theorem start_cases (setup : Setup σ) :
    start setup = (.greeting setup (outletAfter setup []), hail setup) ∨
      ∃ fault, setup.side = .client ∧
        start setup = (.refused (.transport fault), [.refused (.transport fault)]) := by
  unfold start hail outletAfter
  cases hside : setup.side with
  | server => exact .inl rfl
  | client =>
      simp only
      split
      next => exact .inl rfl
      next fault _ => exact .inr ⟨fault, trivial, rfl⟩

theorem stage_life (setup : Setup σ) (events : List Event) :
    Stage setup events (life setup events).1 (life setup events).2 := by
  rcases start_cases setup with hstart | ⟨fault, hside, hstart⟩
  · simp only [life, hstart]
    rcases split_of_firstRead events with hquiet | ⟨before, arrival, after, rfl, hbefore⟩
    · rw [run_greeting _ _ hquiet]
      simpa [outletAfter] using Stage.waiting hquiet
    · have waited : (greeting setup (outletAfter setup [])).run before =
          (.greeting setup (outletAfter setup before), []) := by
        rw [run_greeting _ _ hbefore]
        simp [outletAfter]
      have greeted := greets setup (outletAfter setup before) arrival
      simp only [run_append, waited, run_cons, step, List.nil_append]
      generalize greet setup (outletAfter setup before) arrival = result at greeted
      cases greeted with
      | opened _ =>
          rw [run_connected]
          simpa using Stage.opened hbefore after
      | mismatch hside h =>
          rw [run_refused]
          simpa using Stage.refused hbefore (.mismatch hside h) after
      | baffled h =>
          rw [run_refused]
          simpa using Stage.refused hbefore (.baffled h) after
  · simp only [life, hstart, run_refused]
    exact .mute hside events

/-! ### What belongs to the handshake -/

theorem greeting_of_greets {outlet : Outlet} {arrival : Arrival} {error : ProtocolError}
    {effects : List Effect} (h : Greets setup outlet arrival (.refused error, effects)) :
    (∀ effect ∈ effects, effect.isGreeting) ∧ .opened ∉ effects := by
  cases h with
  | mismatch _ _ => split <;> simp [Effect.isGreeting]
  | baffled _ => simp [Effect.isGreeting]

theorem greeting_hail : (∀ effect ∈ hail setup, effect.isGreeting) ∧ .opened ∉ hail setup := by
  unfold hail
  cases setup.side <;> simp [Effect.isGreeting]

theorem isGreeting_welcome : ∀ effect ∈ welcome setup, effect.isGreeting := by
  unfold welcome
  cases setup.side <;> simp [Effect.isGreeting]

/-- There is nothing but the handshake, or there is a connection whose trace comes behind that of
the handshake. -/
theorem Stage.greeting_or_connected {events : List Event} {e : Endpoint σ} {t : List Effect}
    (h : Stage setup events e t) :
    ((∀ effect ∈ t, effect.isGreeting) ∧ .opened ∉ t) ∨
      ∃ before arrival after greeting, events = before ++ .arrival arrival :: after ∧
        (∀ event ∈ before, event.arrival? = none) ∧ (∀ effect ∈ greeting, effect.isGreeting) ∧
        e = .connected ((setup.connection (outletAfter setup before)).run after).1 ∧
        t = greeting ++ ((setup.connection (outletAfter setup before)).run after).2 := by
  cases h with
  | mute _ _ => exact .inl (by simp [Effect.isGreeting])
  | waiting _ => exact .inl greeting_hail
  | refused _ hgreets _ =>
      obtain ⟨hfirst, hnotFirst⟩ := @greeting_hail _ setup
      obtain ⟨hlast, hnotLast⟩ := greeting_of_greets hgreets
      refine .inl ⟨fun effect hmem => ?_, fun hmem => ?_⟩
      · exact (List.mem_append.mp hmem).elim (hfirst effect) (hlast effect)
      · exact (List.mem_append.mp hmem).elim hnotFirst hnotLast
  | @opened before hbefore after =>
      refine .inr ⟨before, _, after, hail setup ++ welcome setup ++ [.opened], rfl, hbefore,
        fun effect hmem => ?_, rfl, by simp⟩
      simp only [List.mem_append, List.mem_singleton] at hmem
      rcases hmem with (hmem | hmem) | rfl
      · exact greeting_hail.1 effect hmem
      · exact isGreeting_welcome effect hmem
      · rfl

end Endpoint

end DuplexRpc
