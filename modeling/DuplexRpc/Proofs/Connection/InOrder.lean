import DuplexRpc.Proofs.Connection.Ending

/-!
# Serving in order

A connection reads all that arrives as long as it serves, and it serves until something
happens that gives it a reason to stop. What it has read by then, and nothing else, it has
served as a desk does.
-/

namespace DuplexRpc.Connection

variable {σ : Type} {c : Connection σ}

/-! ### One step -/

theorem Halts.ne_serving {event : Event} {phase : Phase} (h : Halts c event phase) :
    phase ≠ .serving := by
  cases h <;> nofun

theorem step_arrival (hp : c.phase = .serving) (arrival : Arrival) :
    c.step (.arrival arrival) =
      ((c.arrive arrival).1, .received arrival :: (c.arrive arrival).2) := by
  rw [step, if_pos hp, receive]

/-- A serving connection reads what arrives, and nothing else. -/
theorem arrivals_step (hp : c.phase = .serving) (event : Event) :
    Trace.arrivals (c.step event).2 = event.arrival?.toList := by
  have quiet : (∀ arrival, event ≠ .arrival arrival) → Trace.arrivals (c.step event).2 = [] := by
    intro other
    have unread := step_of_not_read c fun arrival same => absurd same (other arrival)
    exact Trace.arrivals_eq_nil fun _ => unread.1.not_received
  cases event with
  | arrival arrival =>
      rw [step_arrival hp]
      exact Trace.arrivals_received (fun other => not_received_arrive c arrival) arrival
  | _ => exact quiet nofun

theorem serving_or_halts (hp : c.phase = .serving) (event : Event) :
    (c.step event).1.phase = .serving ∨ Halts c event (c.step event).1.phase := by
  have fate := fate_step hp event
  generalize c.step event = result at fate
  cases fate with
  | on hphase _ => exact .inl hphase
  | stuck hhalts hphase _ => exact .inr (hphase.symm ▸ hhalts)
  | ended hends _ => exact .inr (.ended hends)

/-! ### Runs -/

/-- That a connection has stopped serving in the course of some events: there was a reason for it,
all that had arrived until then has been read, and what has come later has not. -/
def Halted (c : Connection σ) (events : List Event) (d : Connection σ) (t : List Effect) : Prop :=
  ∃ before event after, events = before ++ event :: after ∧ (c.run before).1.phase = .serving ∧
    Halts (c.run before).1 event d.phase ∧
    Trace.arrivals t = (before ++ [event]).filterMap Event.arrival?

theorem serving_or_halted (hp : c.phase = .serving) (events : List Event) :
    ((c.run events).1.phase = .serving ∧
        Trace.arrivals (c.run events).2 = events.filterMap Event.arrival?) ∨
      Halted c events (c.run events).1 (c.run events).2 := by
  induction events generalizing c with
  | nil => exact .inl ⟨hp, rfl⟩
  | cons event rest ih =>
      have read : ∀ {t : List Effect} {events : List Event},
          Trace.arrivals t = events.filterMap Event.arrival? →
          Trace.arrivals ((c.step event).2 ++ t) = (event :: events).filterMap Event.arrival? := by
        intro t events later
        rw [Trace.arrivals, Trace.view_append, ← Trace.arrivals, arrivals_step hp event, later]
        cases event <;> rfl
      rw [run_cons]
      obtain serving | halts := serving_or_halts hp event
      · obtain ⟨still, reads⟩ | ⟨before, last, after, rfl, serves, halts, reads⟩ := ih serving
        · exact .inl ⟨still, read reads⟩
        · refine .inr ⟨event :: before, last, after, rfl, ?_, ?_, read reads⟩ <;> rw [run_cons]
          · exact serves
          · exact halts
      · -- Whatever comes after this event changes nothing any more.
        have stopped := halts.ne_serving
        have unread := Trace.arrivals_eq_nil fun _ => (quiet_run stopped rest).not_received
        refine .inr ⟨[], event, rest, rfl, hp, ?_, read unread⟩
        rw [(stops_run stopped rest).1]
        exact halts

/-! ### Every run -/

/-- What holds of the serving of a connection that has just been opened, when it has become `d` in
the course of some events and `t` is the trace of that. -/
structure ServesInOrder (c : Connection σ) (events : List Event) (d : Connection σ)
    (t : List Effect) : Prop where
  /-- The requests read so far have been served one after another. -/
  desk : ServesAs (deskOf c.session c.service c.side c.state t) d t
  /-- As long as the connection serves it has read all that has arrived. -/
  reads : d.phase = .serving → Trace.arrivals t = events.filterMap Event.arrival?
  /-- It does not stop without a reason, and has read all that had arrived by then. -/
  halted : d.phase ≠ .serving → Halted c events d t
  /-- What arrives while the connection serves is read at once. -/
  attentive : d.phase = .serving → ∀ arrival,
    (d.step (.arrival arrival)).2.head? = some (.received arrival)
  /-- In one step nothing is read after the first effect, so everything that a request leads to
  has happened before the next envelope is read. -/
  prompt : ∀ event arrival, .received arrival ∉ (d.step event).2.tail
  /-- A response brings either data or an error. -/
  answers : ∀ response ∈ Trace.responses t, response.IsAnswer
  /-- When serving has come to an end, nothing more is read, run or answered. -/
  final : d.phase ≠ .serving → ∀ events, Trace.Quiet (d.run events).2

theorem ServesAs.mem_log {desk : Desk σ} {t : List Effect} (h : ServesAs desk c t)
    {response : Envelope} (hmem : response ∈ Trace.responses t) :
    .answered response ∈ desk.log := by
  obtain ⟨effect, heffect, hresponse⟩ := Trace.mem_view.mp hmem
  have served : .answered response ∈ Trace.served t := by
    refine Trace.mem_view.mpr ⟨effect, heffect, ?_⟩
    cases effect with
    | responded other =>
        obtain rfl := Option.some.inj hresponse
        rfl
    | _ => cases hresponse
  rcases h.log with hlog | ⟨_, _, hlog, _⟩
  · exact hlog ▸ served
  · exact hlog ▸ List.mem_append_left _ served

/-- An end serves the requests that arrive one after another, whatever else happens to it: it runs
the handlers and writes the responses that a desk does that has nothing else to do. -/
theorem serves_in_order (session : Session σ) (service : Service) (side : Side)
    (outlet : Outlet) (state : σ) (events : List Event) :
    ServesInOrder (start session service side outlet state) events
      ((start session service side outlet state).run events).1
      ((start session service side outlet state).run events).2 := by
  let c := start session service side outlet state
  have begun : Serving session service side state c [] :=
    ⟨⟨rfl, rfl, rfl⟩, .fresh session service side outlet state⟩
  have serving := begun.run events
  rw [List.nil_append] at serving
  have course := serving_or_halted (c := c) rfl events
  exact {
    desk := serving.desk
    reads := fun still => course.elim (·.2) fun ⟨_, _, _, _, _, halts, _⟩ =>
      absurd still halts.ne_serving
    halted := fun stopped => course.resolve_left fun still => stopped still.1
    attentive := fun still arrival => by rw [step_arrival still]; rfl
    prompt := not_received_tail_step _
    answers := fun response hmem => Desk.isAnswer_of_mem_log (serving.desk.mem_log hmem)
    final := quiet_run }

end DuplexRpc.Connection
