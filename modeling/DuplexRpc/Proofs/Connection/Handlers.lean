import DuplexRpc.Proofs.Connection.Turns

/-!
# What a session is seen to do

Of a session only the runs of its handlers are seen: how they have ended, what they have
asked for, and the responses that come from them. So what holds of every run that a session
can make holds of every trace, and how one request is answered is read off from one run.
-/

namespace DuplexRpc

namespace Connection

variable {σ : Type} {c d : Connection σ} {t : List Effect}
variable {sent : List Sent} {rest : List Command}

/-- What is seen of serving comes from runs of handlers. -/
inductive Stems (c : Connection σ) : Effect → Prop
  | received (arrival : Arrival) : Stems c (.received arrival)
  | handled {request : Envelope} {procedure : Procedure} {args : Values} {run : Run σ}
      (runs : Runs c request procedure args run) :
      Stems c (.handled procedure.name args run.outcome)
  | responded {request response : Envelope} {procedure : Procedure} {args : Values} {run : Run σ}
      (runs : Runs c request procedure args run)
      (responds : responseTo request.callbackId procedure run.outcome = some response) :
      Stems c (.responded response)

/-- A two-way request is read and answered at once, and meanwhile these commands are queued. -/
structure Answered (c : Connection σ) (payload : Bytes) (response : Envelope)
    (commands : List Command) : Prop where
  trace : ∃ procedure args outcome asked, Trace.Asking asked ∧ Trace.commands asked = commands ∧
    (c.step (.arrival (.frame payload))).2 = .received (.frame payload) ::
      .handled procedure args outcome :: asked ++ [.responded response]
  serving : (c.step (.arrival (.frame payload))).1.phase = .serving

/-! ### Everything that is seen -/

theorem stems_of_quiet {effects : List Effect} (quiet : Trace.Quiet effects) :
    ∀ effect ∈ effects, effect.isServing = true → Stems c effect := by
  intro effect hmem serving
  rw [quiet effect hmem] at serving
  cases serving

theorem stems_serve (c : Connection σ) (request : Envelope) :
    ∀ effect ∈ (c.serve request).2, effect.isServing = true → Stems c effect := by
  have ran : ∀ {procedure args run}, Runs c request procedure args run →
      ∀ effect ∈ Effect.handled procedure.name args run.outcome :: (c.ran run).2,
        effect.isServing = true → Stems c effect :=
    fun runs => List.forall_mem_cons.mpr ⟨fun _ => .handled runs, stems_of_quiet (quiet_ran c _)⟩
  have served := serves c request
  generalize c.serve request = result at served
  cases served with
  | unknown _ => exact stems_of_quiet (quiet_finish c _)
  | invalid _ _ => exact stems_of_quiet (quiet_finish c _)
  | stuck runs _ => exact ran runs
  | oneway runs _ _ => exact ran runs
  | answered runs responds _ _ =>
      refine List.forall_mem_append.mpr ⟨ran runs, ?_⟩
      exact List.forall_mem_singleton.mpr fun _ => .responded runs responds
  | unanswered runs _ _ _ =>
      exact List.forall_mem_append.mpr ⟨ran runs, stems_of_quiet (quiet_finish _ _)⟩

theorem stems_arrive (c : Connection σ) (arrival : Arrival) :
    ∀ effect ∈ (c.arrive arrival).2, effect.isServing = true → Stems c effect := by
  unfold arrive
  split
  next => exact stems_of_quiet (quiet_finish c _)
  next => exact stems_of_quiet (quiet_finish c _)
  next payload =>
    split
    next => exact stems_of_quiet (quiet_finish c _)
    next envelope _ =>
      split
      next => exact stems_serve c envelope
      next => exact stems_of_quiet (quiet_settle c envelope)

theorem stems_step (c : Connection σ) (event : Event) :
    ∀ effect ∈ (c.step event).2, effect.isServing = true → Stems c effect := by
  by_cases reads : ∃ arrival, event = .arrival arrival ∧ c.phase = .serving
  · obtain ⟨arrival, rfl, serving⟩ := reads
    rw [step, if_pos serving]
    exact List.forall_mem_cons.mpr ⟨fun _ => .received arrival, stems_arrive c arrival⟩
  · refine stems_of_quiet (step_of_not_read c fun arrival same serving => ?_).1
    exact reads ⟨arrival, same, serving⟩

theorem fixed_run (c : Connection σ) (events : List Event) : Fixed c (c.run events).1 := by
  induction events generalizing c with
  | nil => exact ⟨rfl, rfl, rfl⟩
  | cons event later ih =>
      rw [run_cons]
      exact (fixed_step c event).trans (ih (c.step event).1)

/-- What holds of all that may come from a session holds of all that is seen of serving. -/
theorem seen_run {P : Effect → Prop}
    (stems : ∀ d : Connection σ, Fixed c d → ∀ effect, Stems d effect → P effect)
    (events : List Event) : ∀ effect ∈ (c.run events).2, effect.isServing = true → P effect := by
  induction events generalizing c with
  | nil => exact List.forall_mem_nil _
  | cons event later ih =>
      rw [run_cons]
      have first : ∀ effect ∈ (c.step event).2, effect.isServing = true → P effect :=
        fun effect hmem serving =>
          stems c ⟨rfl, rfl, rfl⟩ effect (stems_step c event effect hmem serving)
      exact List.forall_mem_append.mpr
        ⟨first, ih fun d fixed => stems d ((fixed_step c event).trans fixed)⟩

/-! ### One request -/

section

variable {payload : Bytes} {request response : Envelope} {procedure : Procedure} {args : Values}
variable {run : Run σ}

theorem step_of_runs (serving : c.phase = .serving)
    (read : Envelope.ofBytes? payload = some request) (kind : request.kind = .request)
    (runs : Runs c request procedure args run) (twoWay : procedure.oneway = false)
    (responds : responseTo request.callbackId procedure run.outcome = some response)
    (writable : c.outlet.refuse? response.toBytes = none) :
    c.step (.arrival (.frame payload)) = ((c.ran run).1, .received (.frame payload) ::
      .handled procedure.name args run.outcome :: (c.ran run).2 ++ [.responded response]) := by
  have served : c.arrive (.frame payload) = c.runHandler request.callbackId procedure args := by
    simp only [arrive, read, kind, serve, runs.find, runs.conform]
  have answered : (c.ran run).1.respond response = ((c.ran run).1, [.responded response]) := by
    simp only [respond, outlet_ran, writable]
  rw [step, if_pos serving, receive, served, runHandler_of_twoWay runs.handle responds twoWay,
    answered]
  rfl

theorem answered_of_runs (serving : c.phase = .serving)
    (read : Envelope.ofBytes? payload = some request) (kind : request.kind = .request)
    (runs : Runs c request procedure args run) (twoWay : procedure.oneway = false)
    (responds : responseTo request.callbackId procedure run.outcome = some response)
    (writable : c.outlet.refuse? response.toBytes = none) :
    Answered c payload response (Trace.commands (c.ran run).2) := by
  have step := step_of_runs serving read kind runs twoWay responds writable
  have asking : Trace.Asking (c.ran run).2 :=
    asking_submit { c with state := run.state } run.requests
  constructor
  · exact ⟨_, _, _, _, asking, rfl, by rw [step]⟩
  · rw [step]
    exact (phase_ran c run).trans serving

/-- Nothing else is queued meanwhile, and no request is written. -/
theorem Answered.between {commands : List Command}
    (h : Answered c payload response commands) :
    Trace.commands (c.step (.arrival (.frame payload))).2 = commands ∧
      Trace.requests (c.step (.arrival (.frame payload))).2 = [] := by
  obtain ⟨_, _, _, asked, asking, rfl, effects⟩ := h.trace
  have unwritten : Trace.requests asked = [] := by
    refine Trace.view_eq_nil fun effect hmem => ?_
    have asks := asking effect hmem
    cases effect <;> first | rfl | cases asks
  rw [effects]
  exact ⟨by simp, by simp [unwritten]⟩

/-- Oneway calls of a handler that has been answered are written behind what was queued before. -/
theorem Answered.drains {calls : List Call}
    (answered : Answered c payload response (calls.map .call))
    (h : Sending c t sent rest) (accounts : Accounts c t)
    (oneway : ∀ call ∈ calls, call.procedure.oneway = true) :
    Drains (c.step (.arrival (.frame payload))).1 c.queue.length calls := by
  obtain ⟨commands, unwritten⟩ := answered.between
  have running := not_isOver_of_serving (serving_of_step answered.serving)
  have still_running := not_isOver_of_serving answered.serving
  obtain ⟨_, _, k⟩ := h.step accounts.pending (.arrival (.frame payload))
  obtain ⟨written, _, requests, balance⟩ := h.since k
  have none_written : written = [] := List.map_eq_nil_iff.mp (requests.symm.trans unwritten)
  rw [none_written, commands, h.queue running, k.queue still_running] at balance
  exact k.drains (accounts.step _) still_running balance.symm oneway

end

/-! ### What handlers ask for -/

theorem hasPeers_takeCommand (c : Connection σ) : c.takeCommand.1.hasPeers = c.hasPeers := by
  by_cases left : c.queue = []
  · simp only [takeCommand, left]
  · obtain ⟨_, _, taken⟩ | ⟨call, id, d, takes, taken⟩ | ⟨_, taken⟩ := takeCommand_cases left
    · rw [taken]
      rfl
    · have same : d.hasPeers = c.hasPeers := by cases takes <;> rfl
      rw [taken, ← same]
      simp only [write]
      split <;> rfl
    · rw [taken]

theorem hasPeers_serve (c : Connection σ) (request : Envelope) :
    (c.serve request).1.hasPeers = c.hasPeers := by
  have ran : ∀ run, (c.ran run).1.hasPeers = c.hasPeers := by
    intro run
    obtain ⟨_, _, frame⟩ := ran_frame c run
    rw [frame]
  have served := serves c request
  generalize c.serve request = result at served
  cases served with
  | unknown _ => rfl
  | invalid _ _ => rfl
  | stuck _ _ => exact ran _
  | oneway _ _ _ => exact ran _
  | answered _ _ _ _ => exact ran _
  | unanswered _ _ _ _ => exact ran _

theorem hasPeers_arrive (c : Connection σ) (arrival : Arrival) :
    (c.arrive arrival).1.hasPeers = c.hasPeers := by
  unfold arrive
  split
  next => rfl
  next => rfl
  next =>
    split
    next => rfl
    next envelope _ =>
      split
      next => exact hasPeers_serve c envelope
      next =>
        unfold settle
        split <;> rfl

/-- Somebody who keeps a peer can go on asking. -/
theorem hasPeers_step (c : Connection σ) {event : Event} (kept : event ≠ .peersGone) :
    (c.step event).1.hasPeers = c.hasPeers := by
  cases event with
  | peersGone => exact absurd rfl kept
  | farGone => rfl
  | call name args =>
      obtain ⟨_, frame⟩ := call_frame c name args
      rw [step, frame]
  | close =>
      obtain ⟨_, frame⟩ := close_frame c
      rw [step, frame]
  | command =>
      rw [step]
      split
      next => exact hasPeers_takeCommand c
      next => rfl
  | arrival arrival =>
      rw [step]
      split
      next => exact hasPeers_arrive c arrival
      next => rfl

theorem hasPeers_run {events : List Event} (kept : .peersGone ∉ events) :
    (c.run events).1.hasPeers = c.hasPeers := by
  induction events generalizing c with
  | nil => rfl
  | cons event later ih =>
      obtain ⟨first, kept⟩ := not_or.mp (List.mem_cons.not.mp kept)
      rw [run_cons]
      exact (ih kept).trans (hasPeers_step c (Ne.symm first))

/-- Calls that pass their checks as they are, are queued under the next tickets. -/
theorem commands_submit {calls : List Call} (accepts : c.accepts = true)
    (prepared : ∀ call ∈ calls,
      c.peer.prepare call.procedure.name call.args = .ok (call.procedure, call.args))
    (numbered : calls.map (·.ticket) = List.range' c.nextTicket calls.length) :
    Trace.commands (c.submit (calls.map fun call => .call call.procedure.name call.args)).2 =
      calls.map .call := by
  induction calls generalizing c with
  | nil => rfl
  | cons call rest ih =>
      obtain ⟨first, others⟩ := List.forall_mem_cons.mp prepared
      rw [List.map_cons, List.length_cons, List.range'_succ] at numbered
      obtain ⟨ticket, numbered⟩ := List.cons.inj numbered
      have called := call_of_accepts first accepts
      have later : Trace.commands ((c.call call.procedure.name call.args).1.submit
          (rest.map fun call => .call call.procedure.name call.args)).2 = rest.map .call := by
        refine ih ?_ ?_ ?_
        · rw [called]
          exact accepts
        · rw [called]
          exact others
        · rw [called]
          exact numbered
      have asked : Trace.commands (c.call call.procedure.name call.args).2 = [.call call] := by
        rw [called, ← ticket]
        cases call.procedure.oneway <;> rfl
      have both := Trace.commands_append (c.call call.procedure.name call.args).2
        ((c.call call.procedure.name call.args).1.submit
          (rest.map fun call => .call call.procedure.name call.args)).2
      rw [asked, later] at both
      exact both

end Connection

end DuplexRpc
