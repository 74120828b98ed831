import DuplexRpc.Proofs.Connection.Ending
import DuplexRpc.Proofs.Link
import DuplexRpc.Proofs.Pair.Lane

/-!
# The lifecycle of a session

A session is opened once at most, after a handshake that has gone well, and before it is
opened no handler runs. A session that has been opened is stopped once, when its
connection ends, and after that no handler runs either.
-/

namespace DuplexRpc.Endpoint

variable {σ : Type} {setup : Setup σ}

/-- What holds of the handshake of a server and of what follows it. -/
structure ServerLife (setup : Setup σ) (events : List Event) (t : List Effect) : Prop where
  /-- When a session is opened, the first frame was the version, and `good` is all that has been
  written. It is not opened again. -/
  opened : .opened ∈ t →
    Event.firstRead? events = some (.frame (Text.utf8 setup.config.version)) ∧
      ∃ later, t = .greeted "good" :: .opened :: later ∧ ∀ effect ∈ later, ¬ effect.isGreeting
  /-- Without a session there is only the handshake, and at most `invalid` is written. -/
  unopened : .opened ∉ t → (∀ effect ∈ t, effect.isGreeting) ∧
    t.filterMap Effect.payload? <+: [Text.utf8 "invalid"]
  /-- The handshake fails because of another version whether or not `invalid` can be written. -/
  mismatch : ∀ {before version after},
    events = before ++ .arrival (.frame (Text.utf8 version)) :: after →
    (∀ event ∈ before, event.arrival? = none) → version ≠ setup.config.version →
    t = (if (Text.utf8 "invalid").length ≤ setup.config.maxFrame ∧ .farGone ∉ before then
        [.greeted "invalid"] else []) ++
      [.refused (.versionMismatch setup.config.version version)]
  /-- For no other reason is `invalid` written. -/
  rejected : .greeted "invalid" ∈ t → ∃ version, version ≠ setup.config.version ∧
    Event.firstRead? events = some (.frame (Text.utf8 version))

/-- What holds of the handshake of a client and of what follows it. -/
structure ClientLife (setup : Setup σ) (events : List Event) (t : List Effect) : Prop where
  /-- When a session is opened, the version has been written and the first frame was `good`. It is
  not opened again. -/
  opened : .opened ∈ t → Event.firstRead? events = some (.frame (Text.utf8 "good")) ∧
    ∃ later, t = .greeted setup.config.version :: .opened :: later ∧
      ∀ effect ∈ later, ¬ effect.isGreeting
  /-- Without a session there is only the handshake. -/
  unopened : .opened ∉ t → ∀ effect ∈ t, effect.isGreeting

/-- What holds of the life of an endpoint that has had some input. -/
structure Lifecycle (setup : Setup σ) (events : List Event) (e : Endpoint σ) (t : List Effect) :
    Prop where
  server : setup.side = .server → ServerLife setup events t
  client : setup.side = .client → ClientLife setup events t
  /-- As long as the endpoint is not done, no session is stopped. -/
  running : e.isOver = false → Trace.stops t = []
  /-- When it is done after the handshake has gone well, the session has been stopped once. -/
  stopped : .opened ∈ t → e.isOver = true →
    ∃ before arrival after d error, events = before ++ .arrival arrival :: after ∧
      (∀ event ∈ before, event.arrival? = none) ∧ e = .connected d ∧
      Connection.StoppedOnce (setup.connection (outletAfter setup before)) after d t error

/-! ### What is read first -/

theorem firstRead?_split {before : List Event} (h : ∀ event ∈ before, event.arrival? = none)
    (arrival : Arrival) (after : List Event) :
    Event.firstRead? (before ++ .arrival arrival :: after) = some arrival := by
  rw [Event.firstRead?, List.findSome?_append, List.findSome?_eq_none_iff.mpr h]
  rfl

/-- There is one way to take events apart at what is read first. -/
theorem eq_of_split {before other after later : List Event} {arrival first : Arrival}
    (h : ∀ event ∈ before, event.arrival? = none) (ho : ∀ event ∈ other, event.arrival? = none)
    (same : before ++ .arrival arrival :: after = other ++ .arrival first :: later) :
    before = other ∧ arrival = first := by
  rcases split_append same with ⟨more, rfl⟩ | ⟨more, rfl, hmore⟩
  · have hread := h (.arrival first) (by simp)
    cases hread
  · cases more with
    | nil =>
        obtain ⟨hfirst, _⟩ := List.cons.inj hmore
        exact ⟨(List.append_nil _).symm, Event.arrival.inj hfirst⟩
    | cons event more =>
        obtain ⟨rfl, _⟩ := List.cons.inj hmore
        have hread := ho (.arrival arrival) (by simp)
        cases hread

/-! ### The handshake -/

theorem not_isGreeting_of_kinded {t : List Effect} (h : Trace.Kinded t) :
    ∀ effect ∈ t, ¬ effect.isGreeting := by
  intro effect hmem hgreeting
  have kinded := h effect hmem
  cases effect <;> first | exact kinded | cases hgreeting

theorem serverLife_of_unread {events : List Event} (h : ∀ event ∈ events, event.arrival? = none) :
    ServerLife setup events [] where
  opened := nofun
  unopened _ := ⟨nofun, List.nil_prefix⟩
  mismatch := by
    rintro before version after rfl
    have hread := h (.arrival (.frame (Text.utf8 version))) (by simp)
    cases hread
  rejected := nofun

theorem refuse?_outletAfter {events : List Event} {payload : Bytes} :
    (outletAfter setup events).refuse? payload = none ↔
      payload.length ≤ setup.config.maxFrame ∧ .farGone ∉ events := by
  simp only [Outlet.refuse?, outletAfter, ← Nat.not_lt]
  by_cases hlimit : setup.config.maxFrame < payload.length
  · simp [hlimit]
  · by_cases hgone : .farGone ∈ events <;> simp [hlimit, hgone]

theorem serverLife_of_mismatch {before : List Event}
    (hbefore : ∀ event ∈ before, event.arrival? = none) {version : String}
    (hversion : version ≠ setup.config.version) (after : List Event) :
    ServerLife setup (before ++ .arrival (.frame (Text.utf8 version)) :: after)
      ((if (outletAfter setup before).refuse? (Text.utf8 rejection) = none then
          [.greeted rejection] else []) ++
        [.refused (.versionMismatch setup.config.version version)]) where
  opened hmem := by
    split at hmem <;> simp at hmem
  unopened _ := by
    constructor
    · split <;> simp [Effect.isGreeting]
    · split
      · simp [Effect.payload?, rejection]
      · exact List.nil_prefix
  mismatch := by
    intro other found later same hother _
    obtain ⟨rfl, hframe⟩ := eq_of_split hbefore hother same
    obtain rfl := Text.utf8_injective (Arrival.frame.inj hframe)
    simp only [refuse?_outletAfter]
    rfl
  rejected _ := ⟨version, hversion, firstRead?_split hbefore _ after⟩

theorem serverLife_of_baffled (hside : setup.side = .server) {before : List Event}
    (hbefore : ∀ event ∈ before, event.arrival? = none) {outlet : Outlet} {arrival : Arrival}
    {error : ProtocolError} (h : Baffles setup outlet arrival error) (after : List Event) :
    ServerLife setup (before ++ .arrival arrival :: after) [.refused error] where
  opened hmem := by simp at hmem
  unopened _ := ⟨by simp [Effect.isGreeting], List.nil_prefix⟩
  mismatch := by
    intro other version later same hother hversion
    obtain ⟨rfl, rfl⟩ := eq_of_split hbefore hother same
    generalize hframe : Arrival.frame (Text.utf8 version) = arrival at h
    cases h with
    | closed => cases hframe
    | fault _ => cases hframe
    | notText hnot =>
        obtain rfl := Arrival.frame.inj hframe
        simp at hnot
    | unsent _ _ =>
        exact absurd (Text.utf8_injective (Arrival.frame.inj hframe)) hversion
    | rejected hclient => cases hside.symm.trans hclient
    | unexpected hclient _ _ => cases hside.symm.trans hclient
  rejected hmem := by simp at hmem

theorem serverLife_of_opened {before : List Event}
    (hbefore : ∀ event ∈ before, event.arrival? = none) {t : List Effect} (h : Trace.Kinded t)
    (after : List Event) :
    ServerLife setup (before ++ .arrival (.frame (Text.utf8 setup.config.version)) :: after)
      (.greeted acceptance :: .opened :: t) where
  opened _ := ⟨firstRead?_split hbefore _ after, t, rfl, not_isGreeting_of_kinded h⟩
  unopened hnot := by simp at hnot
  mismatch := by
    intro other version later same hother hversion
    obtain ⟨_, hframe⟩ := eq_of_split hbefore hother same
    exact absurd (Text.utf8_injective (Arrival.frame.inj hframe)).symm hversion
  rejected hmem := by
    have hmem : Effect.greeted "invalid" ∈ t := by simpa [acceptance] using hmem
    exact absurd rfl (not_isGreeting_of_kinded h _ hmem)

/-- The part of the server in the handshake. -/
theorem Stage.serverLife {events : List Event} {e : Endpoint σ} {t : List Effect}
    (h : Stage setup events e t) (hside : setup.side = .server) : ServerLife setup events t := by
  cases h with
  | mute hclient _ => cases hside.symm.trans hclient
  | waiting h =>
      simp only [hail, hside]
      exact serverLife_of_unread h
  | refused hbefore hgreets after =>
      simp only [hail, hside, List.nil_append]
      cases hgreets with
      | mismatch _ hversion => exact serverLife_of_mismatch hbefore hversion after
      | baffled h => exact serverLife_of_baffled hside hbefore h after
  | opened hbefore after =>
      simp only [hail, welcome, watchword, hside]
      exact serverLife_of_opened hbefore (Connection.kinded_run _ _) after

/-- The part of the client in the handshake. -/
theorem Stage.clientLife {events : List Event} {e : Endpoint σ} {t : List Effect}
    (h : Stage setup events e t) (hside : setup.side = .client) : ClientLife setup events t := by
  cases h with
  | mute _ _ => exact ⟨by simp, by simp [Effect.isGreeting]⟩
  | waiting _ =>
      simp only [hail, hside]
      exact ⟨by simp, by simp [Effect.isGreeting]⟩
  | refused _ hgreets _ =>
      simp only [hail, hside]
      cases hgreets with
      | mismatch hserver _ => cases hside.symm.trans hserver
      | baffled _ => exact ⟨by simp, by simp [Effect.isGreeting]⟩
  | opened hbefore after =>
      simp only [hail, welcome, watchword, hside]
      refine ⟨fun _ => ⟨firstRead?_split hbefore _ after, _, rfl, ?_⟩, fun hnot => ?_⟩
      · exact not_isGreeting_of_kinded (Connection.kinded_run _ _)
      · simp at hnot

/-! ### The end -/

theorem stops_of_isGreeting {t : List Effect} (h : ∀ effect ∈ t, effect.isGreeting) :
    Trace.stops t = [] := by
  refine Trace.view_eq_nil fun effect hmem => ?_
  have hgreeting := h effect hmem
  cases effect <;> first | rfl | cases hgreeting

theorem lifecycle (setup : Setup σ) (events : List Event) :
    Lifecycle setup events (life setup events).1 (life setup events).2 := by
  have stage := stage_life setup events
  rcases stage.greeting_or_connected with ⟨hgreeting, hopened⟩ |
    ⟨before, arrival, after, greeting, hevents, hbefore, hgreeting, hconnected, htrace⟩
  · exact ⟨stage.serverLife, stage.clientLife, fun _ => stops_of_isGreeting hgreeting,
      fun hmem => absurd hmem hopened⟩
  · have hstops := stops_of_isGreeting hgreeting
    have serving : (setup.connection (outletAfter setup before)).phase = .serving := rfl
    refine ⟨stage.serverLife, stage.clientLife, fun hover => ?_, fun _ hover => ?_⟩ <;>
      rw [hconnected] at hover <;> rw [htrace]
    · rcases Connection.stoppedOnce_run serving after with ⟨_, hnone⟩ | ⟨error, h⟩
      · rw [Trace.stops_append, hstops, hnone]
        rfl
      · simp [isOver, Connection.isOver, h.phase] at hover
    · rcases Connection.stoppedOnce_run serving after with ⟨hnot, _⟩ | ⟨error, h⟩
      · exact absurd (hnot.symm.trans hover) Bool.false_ne_true
      · exact ⟨before, arrival, after, _, error, hevents, hbefore, hconnected, h.behind hstops⟩

/-- Whatever reaches an endpoint, its session is opened after a good handshake or not at all, and
then stopped once, when the connection ends. That goes for everything a far end can write on a
link. The end of the stream then stops the session without an error if nothing, or a length alone,
is left behind the last whole frame, and with an error if anything else is. -/
theorem session_is_opened_and_stopped_once (setup : Setup σ) :
    (∀ events : List Event,
      Lifecycle setup events (life setup events).1 (life setup events).2) ∧
    ∀ events : List Link.Event, ∃ inputs, Link.Delivered events inputs ∧
      life setup inputs = ((Link.life setup events).1.endpoint, (Link.life setup events).2) ∧
      Lifecycle setup inputs (Link.life setup events).1.endpoint (Link.life setup events).2 := by
  refine ⟨lifecycle setup, fun events => ?_⟩
  obtain ⟨inputs, delivered, hlife⟩ := Link.life_delivered setup events
  have lives := lifecycle setup inputs
  rw [hlife] at lives
  exact ⟨inputs, delivered, hlife, lives⟩

/-- A server of a service without procedures. -/
def bareSetup : Setup Unit :=
  { session := .idle, service := .named "bare", side := .server, config := {}, state := () }

/-- A far end that goes away when it has announced a frame of five bytes. -/
def truncation : List Link.Event :=
  [.bytes (Framing.encode (Text.utf8 "ango-0.1")), .turn .read, .bytes (Framing.lengthBytes 5),
    .gone, .turn .read]

/-- A stream that ends in the middle of a frame, behind its length, counts as closed: nobody has
asked for the end of the connection, but its session is stopped without an error. -/
theorem truncated_frame_stops_without_error :
    Trace.stops (Link.life bareSetup truncation).2 = [none] ∧
      (∀ command, .queued command ∉ (Link.life bareSetup truncation).2) ∧
      ¬ Framing.IsWhole (Link.wrote truncation) := by
  have happened : (Link.life bareSetup truncation).2 =
      [.greeted "good", .opened, .received .closed, .stopped none] := rfl
  have wrote : Link.wrote truncation =
      [Text.utf8 "ango-0.1"].flatMap Framing.encode ++ Framing.lengthBytes 5 := rfl
  rw [happened, wrote]
  refine ⟨rfl, by simp, Framing.not_isWhole_append ?_ ?_⟩
  · decide
  · exact Framing.not_isWhole_lengthBytes (by decide) (by decide)

end DuplexRpc.Endpoint
