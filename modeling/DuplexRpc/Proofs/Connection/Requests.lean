import DuplexRpc.Proofs.Connection.Attendance
import DuplexRpc.Proofs.Connection.Outgoing
import DuplexRpc.Proofs.Connection.Rejections
import DuplexRpc.Proofs.Pair.Correlation

/-!
# Requests are what peers have asked for

What a connection writes for its peers depends on what they have asked for and in which
order, and not on who has asked or on what the far end has sent in between. Somebody
outside may ask while a handler runs; that counts among what the handler asks for. Calls
that fail their checks do not count at all.
-/

namespace DuplexRpc

namespace Connection

variable {σ : Type} {c d : Connection σ} {t : List Effect}
variable {sent other : List Sent} {rest more : List Command}

/-- What there is left follows from the requests that have been written. -/
theorem Sending.eq_rest (h : Sending c t sent rest) (k : Sending d t other more) : rest = more := by
  have same : sent.map Sent.entry = other.map Sent.entry := h.requests.symm.trans k.requests
  have length : sent.length = other.length := by
    simpa only [List.length_map] using congrArg List.length same
  refine List.append_inj_right (h.commands.symm.trans k.commands) ?_
  rw [List.length_map, List.length_map, length]

/-! ### Taking up a command -/

/-- What becomes of a call that is taken up. -/
inductive TakesUp (c : Connection σ) (call : Call) (behind : List Command) :
    Connection σ × List Effect → Prop
  /-- Its request is written. -/
  | written {d : Connection σ} (id : CallbackId) (queue : d.queue = behind) :
      TakesUp c call behind
        (d, [.requested call.ticket (.request call.procedure.name id call.args)])
  /-- Its request cannot be written, and so the connection ends. -/
  | unwritten {result : Connection σ × List Effect} (id : CallbackId) {fault : TransportFault}
      (refuse : c.outlet.refuse?
        (Envelope.request call.procedure.name id call.args).toBytes = some fault)
      (ended : result.1.phase = .ended (some (.transport fault))) : TakesUp c call behind result

theorem takesUp_write {call : Call} {behind : List Command} (id : CallbackId)
    (queue : d.queue = behind) (outlet : d.outlet = c.outlet) :
    TakesUp c call behind (d.write call id) := by
  simp only [write]
  split
  next => exact .written id queue
  next fault refuse => exact .unwritten id (outlet ▸ refuse) rfl

/-- A call that is taken up finds an id, unless the cycle of ids has come round. -/
theorem Sending.takesUp (h : Sending c t sent rest) (serving : c.phase = .serving) {call : Call}
    {behind : List Command} (queue : c.queue = .call call :: behind) :
    TakesUp c call behind (c.step .command) ∨ UInt64.size ≤ Sent.twoWays sent + 1 := by
  have taken : c.step .command = { c with queue := behind }.send call := by
    simp only [Connection.step, if_pos serving, Connection.takeCommand, queue]
  rw [taken, send]
  cases call.procedure.oneway with
  | true =>
      rw [if_pos rfl]
      exact .inl (takesUp_write .none rfl rfl)
  | false =>
      rw [if_neg Bool.false_ne_true]
      by_cases few : Sent.twoWays sent + 1 < UInt64.size
      · simp only [h.register (not_isOver_of_serving serving) few call]
        exact .inl (takesUp_write _ rfl rfl)
      · exact .inr (Nat.le_of_not_lt few)

/-- To take up what asks for the end is the end, and what is behind it stays unwritten. -/
theorem Sending.close (h : Sending c t sent rest) (serving : c.phase = .serving)
    {behind : List Command} (queue : c.queue = .close :: behind) (events : List Event) :
    (c.run (.command :: events)).1.phase = .ended none ∧
      Sending (c.run (.command :: events)).1 (t ++ (c.run (.command :: events)).2) sent
        (.close :: behind) := by
  have left : rest = .close :: behind := (h.queue (not_isOver_of_serving serving)).trans queue
  have taken : c.step .command = { c with queue := behind }.finish none := by
    simp only [Connection.step, if_pos serving, Connection.takeCommand, queue]
  have ended : Sending (c.step .command).1 (t ++ (c.step .command).2) sent rest := by
    rw [taken]
    exact h.finish fun _ => .inr ⟨behind, left⟩
  have phase : (c.step .command).1.phase = .ended none := by
    rw [taken]
    rfl
  have stopped : (c.step .command).1.isOver = true := by
    rw [isOver, phase]
  obtain ⟨still, kept⟩ := ended.over_run stopped events
  rw [run_cons, ← left]
  refine ⟨still.trans phase, ?_⟩
  rwa [← List.append_assoc]

/-! ### Every run -/

/-- A run is faithful to its peers: these calls have been written for them under these ids, and that
is left of what they have asked for. -/
structure Faithful (c : Connection σ) (events : List Event) (sent : List Sent)
    (rest : List Command) : Prop where
  sending : Sending (c.run events).1 (c.run events).2 sent rest
  /-- What has been written are calls that peers have made, with the arguments as checked. -/
  prepared : ∀ x ∈ sent, Prepared c.peer (c.run events).2 x.call
  /-- A call that passes its checks is queued as long as somebody is there to take it up. -/
  queues : ∀ {name args procedure checked}, (c.run events).1.accepts = true →
    c.peer.prepare name args = .ok (procedure, checked) →
    .queued (.call ⟨(c.run events).1.nextTicket, procedure, checked⟩) ∈
      ((c.run events).1.step (.call name args)).2
  /-- A call that fails its checks has not been queued. -/
  rejected : ∀ {ticket name args error}, .called ticket name args ∈ (c.run events).2 →
    c.peer.prepare name args = .error error →
    ticket ∉ (Trace.queued (c.run events).2).map (·.ticket)
  /-- Without such calls, whoever makes them, everything else would have happened all the same. -/
  unmade : ∀ {session fewer}, c.session.Spares c.peer session →
    Spares (Event.Fails c.peer) events fewer →
    ∃ kept, Alike c.peer kept (c.run events).1 ({ c with session }.run fewer).1 ∧
      Trace.Spared c.peer kept (c.run events).2 ({ c with session }.run fewer).2 ∧
      ({ c with session }.run fewer).2.filterMap Effect.payload? =
        (c.run events).2.filterMap Effect.payload?
  /-- The call that is taken up next is written, or the connection ends with an error. -/
  takesUp : ∀ {call behind}, (c.run events).1.phase = .serving →
    (c.run events).1.queue = .call call :: behind →
    TakesUp (c.run events).1 call behind ((c.run events).1.step .command) ∨
      UInt64.size ≤ Sent.twoWays sent + 1
  /-- Between a two-way request and its response nothing is written. -/
  attends : Attends (c.run events).1 (c.run events).2
  /-- Whoever asks for the end has everything written that was queued before, and nothing else. -/
  closing : ∀ {before after behind}, events = before ++ .command :: after →
    (c.run before).1.phase = .serving → (c.run before).1.queue = .close :: behind →
    (c.run events).1.phase = .ended none ∧ rest = .close :: behind

theorem run_append (c : Connection σ) (events later : List Event) :
    c.run (events ++ later) =
      (((c.run events).1.run later).1, (c.run events).2 ++ ((c.run events).1.run later).2) :=
  runSteps_append step c events later

theorem peer_run (c : Connection σ) (events : List Event) : (c.run events).1.peer = c.peer := by
  induction events generalizing c with
  | nil => rfl
  | cons event later ih =>
      rw [run_cons]
      exact (ih (c.step event).1).trans (fixed_step c event).peer

/-- What has been written was queued. -/
theorem Sending.mem_queued (h : Sending c t sent rest) {x : Sent} (hx : x ∈ sent) :
    x.call ∈ Trace.queued t := by
  have command : .call x.call ∈ Trace.commands t := by
    rw [h.commands]
    exact List.mem_append_left _ (List.mem_map_of_mem hx)
  obtain ⟨effect, hmem, shows⟩ := Trace.mem_view.mp command
  refine Trace.mem_view.mpr ⟨effect, hmem, ?_⟩
  cases effect <;> cases shows
  rfl

/-- Whatever handlers and others ask for, and whatever the far end sends, the requests are the calls
in the order in which they were queued, and none is left out. -/
theorem requests_are_faithful (session : Session σ) (service : Service) (side : Side)
    (outlet : Outlet) (state : σ) (events : List Event) :
    ∃ sent rest, Faithful (start session service side outlet state) events sent rest := by
  have fresh := Sending.start session service side outlet state
  have begun := Accounts.start session service side outlet state
  generalize hc : start session service side outlet state = c at fresh begun
  obtain ⟨sent, rest, sending⟩ := fresh.run begun events
  have accounts := begun.run events
  have attends := Attends.run (.nil c) events
  rw [List.nil_append] at sending accounts attends
  refine ⟨sent, rest, ?_⟩
  constructor
  case sending => exact sending
  case prepared =>
    intro x hx
    rw [← peer_run c events]
    exact accounts.prepared _ (sending.mem_queued hx)
  case queues =>
    intro name args procedure checked accepts prepared
    rw [← peer_run c events] at prepared
    rw [Connection.step, call_of_accepts prepared accepts]
    exact List.mem_cons_of_mem _ List.mem_cons_self
  case rejected =>
    intro ticket name args error called refused
    rw [← peer_run c events] at refused
    exact accounts.notMem_queued called refused
  case unmade =>
    intro other fewer handlers spared
    subst hc
    obtain ⟨kept, alike, trace⟩ :=
      Alike.run spared (.start service side outlet state handlers)
    exact ⟨kept, alike, trace, trace.payloads⟩
  case takesUp => exact fun serving queue => sending.takesUp serving queue
  case attends => exact attends
  case closing =>
    intro before after behind split serving queue
    obtain ⟨early, left, h⟩ := fresh.run begun before
    obtain ⟨phase, closed⟩ := h.close serving queue after
    rw [List.nil_append] at closed
    rw [split, run_append] at sending ⊢
    exact ⟨phase, sending.eq_rest closed⟩

end Connection

end DuplexRpc
