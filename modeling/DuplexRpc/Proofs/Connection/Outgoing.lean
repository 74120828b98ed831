import DuplexRpc.Proofs.Connection.Ending
import DuplexRpc.Proofs.Pair.Lane

/-!
# Outgoing requests

Whatever peers have asked for is taken up in the order in which it was queued, and every
call that is taken up is written before the next command is looked at. So the commands of
a run are the calls that have been written, and then what is left. An end that has been
closed has written everything that was queued before, and nothing behind it.

Two-way calls are numbered in the order in which they are written, whether earlier ones
have been answered or not. Only when the cycle of ids has come round can this be different.
-/

namespace DuplexRpc

@[simp] def Effect.command? : Effect → Option Command
  | queued command => some command
  | _ => none

/-- What peers have asked for, in the order in which it was queued. -/
abbrev Trace.commands : List Effect → List Command := view Effect.command?

theorem Trace.commands_append (t u : List Effect) : commands (t ++ u) = commands t ++ commands u :=
  view_append _ t u

theorem Trace.requests_append (t u : List Effect) : requests (t ++ u) = requests t ++ requests u :=
  view_append _ t u

namespace Sent

def twoWays (sent : List Sent) : Nat := sent.countP isTwoWay

theorem twoWays_snoc (sent : List Sent) (x : Sent) :
    twoWays (sent ++ [x]) = twoWays sent + if x.isTwoWay then 1 else 0 := by
  rw [twoWays, List.countP_append, List.countP_singleton]
  rfl

end Sent

/-- The next id is used at once as long as no call waits under it. -/
theorem PendingCalls.register?_of_fresh {α : Type} {p : PendingCalls α} (call : α)
    (fresh : p.find? p.nextId = none) :
    p.register? call =
      some (p.nextId, { waiting := (p.nextId, call) :: p.waiting, nextId := p.nextId.next }) := by
  simp only [register?, freeId?, isFree, fresh, Option.isNone_none, if_true, Option.map_some]

namespace Connection

variable {σ : Type} {c d : Connection σ} {t effects : List Effect}
variable {sent : List Sent} {rest : List Command}

/-! ### What peers ask for -/

/-- What peers ask for is queued behind everything else, unless the connection has ended. -/
structure Asks (c : Connection σ) (result : Connection σ × List Effect) : Prop where
  frame : ∃ nextTicket, result.1 =
    { c with queue := c.queue ++ Trace.commands result.2, nextTicket }
  asking : Trace.Asking result.2
  ended : c.isOver = true → Trace.commands result.2 = []

namespace Asks

theorem none (c : Connection σ) (nextTicket : Nat) {effects : List Effect}
    (asking : Trace.Asking effects) (unqueued : Trace.commands effects = []) :
    Asks c ({ c with nextTicket }, effects) where
  frame := ⟨nextTicket, by rw [unqueued, List.append_nil]⟩
  asking := asking
  ended _ := unqueued

theorem append {first later : Connection σ × List Effect} (h : Asks c first)
    (k : Asks first.1 later) : Asks c (later.1, first.2 ++ later.2) where
  frame := by
    obtain ⟨_, first_eq⟩ := h.frame
    obtain ⟨nextTicket, later_eq⟩ := k.frame
    refine ⟨nextTicket, ?_⟩
    rw [later_eq, first_eq, Trace.commands_append, List.append_assoc]
  asking := h.asking.append k.asking
  ended := by
    intro ended
    obtain ⟨_, first_eq⟩ := h.frame
    have still : first.1.isOver = true := by
      rw [first_eq]
      exact ended
    rw [Trace.commands_append, h.ended ended, k.ended still]
    rfl

end Asks

theorem asks_call (c : Connection σ) (name : String) (args : Values) :
    Asks c (c.call name args) := by
  have asking := asking_call c name args
  cases prepared : c.peer.prepare name args with
  | error error =>
      rw [call_of_error prepared] at asking ⊢
      exact .none c _ asking rfl
  | ok checked =>
      obtain ⟨procedure, checked⟩ := checked
      cases accepts : c.accepts with
      | false =>
          rw [call_of_not_accepts prepared accepts] at asking ⊢
          exact .none c _ asking rfl
      | true =>
          rw [call_of_accepts prepared accepts] at asking ⊢
          refine ⟨⟨c.nextTicket + 1, ?_⟩, asking, fun ended => ?_⟩
          · cases procedure.oneway <;> rfl
          · rw [Accounts.not_isOver_of_accepts accepts] at ended
            cases ended

theorem asks_close (c : Connection σ) : Asks c c.close := by
  have asking := asking_close c
  unfold close at asking ⊢
  split
  next accepts =>
    refine ⟨⟨_, rfl⟩, ?_, fun ended => ?_⟩
    · rwa [if_pos accepts] at asking
    · rw [Accounts.not_isOver_of_accepts accepts] at ended
      cases ended
  next => exact .none c c.nextTicket (List.forall_mem_nil _) rfl

theorem asks_submit (c : Connection σ) (requests : List Request) :
    Asks c (c.submit requests) :=
  submit_invariant (P := fun d t => Asks c (d, t))
    (fun {d _} name args asks => asks.append (asks_call d name args))
    (fun {d _} asks => asks.append (asks_close d))
    (.none c c.nextTicket (List.forall_mem_nil _) rfl) requests

/-! ### What is taken up -/

/-- Oneway calls, and no others, are written without an id. -/
theorem Taken.unnumbered_iff {call : Call} {id : CallbackId} (h : Taken c call id d)
    (pending : c.pending.WellFormed) : id = .none ↔ call.procedure.oneway = true := by
  cases h with
  | oneway _ oneway => exact ⟨fun _ => oneway, fun _ => rfl⟩
  | twoWay _ twoWay registered =>
      obtain ⟨_, free⟩ := PendingCalls.eq_of_register? registered
      have numbered := PendingCalls.freeId?_ne_none pending.nextId free
      refine ⟨fun unnumbered => absurd unnumbered numbered, fun oneway => ?_⟩
      rw [twoWay] at oneway
      cases oneway

/-- Nobody waits for an answer to a oneway call. -/
theorem Taken.pending_of_oneway {call : Call} {id : CallbackId} (h : Taken c call id d)
    (oneway : call.procedure.oneway = true) : d.pending = c.pending := by
  cases h with
  | oneway _ _ => rfl
  | twoWay _ twoWay _ =>
      rw [twoWay] at oneway
      cases oneway

/-! ### What has been written -/

/-- How the requests that a connection has written go together with what its peers have asked for:
these calls have been written under these ids, and that is left. -/
structure Sending (c : Connection σ) (t : List Effect) (sent : List Sent) (rest : List Command) :
    Prop where
  /-- The calls that have been written are those that were queued first. -/
  commands : Trace.commands t = sent.map (.call ·.call) ++ rest
  /-- Each has been written once, and nothing else has. -/
  requests : Trace.requests t = sent.map Sent.entry
  oneway : ∀ x ∈ sent, x.id = .none ↔ x.call.procedure.oneway = true
  /-- The first two-way call has the id 1, and so on up to the greatest id. -/
  numbered : ∀ {before x after}, sent = before ++ x :: after → x.isTwoWay = true →
    Sent.twoWays before + 1 < UInt64.size → x.id.value.toNat = Sent.twoWays before + 1
  /-- Until the connection ends, everything that has not been written is queued. -/
  queue : c.isOver = false → rest = c.queue
  /-- A connection that has ended without an error was at the end of its stream, or it has been
  asked to close. -/
  closed : c.phase = .ended Option.none →
    .received .closed ∈ t ∨ ∃ behind, rest = .close :: behind
  nextId : c.isOver = false → Sent.twoWays sent + 1 < UInt64.size →
    c.pending.nextId.value.toNat = Sent.twoWays sent + 1
  waiting : c.isOver = false → Sent.twoWays sent + 1 < UInt64.size →
    ∀ {id call}, (id, call) ∈ c.pending.waiting → id.value.toNat ≤ Sent.twoWays sent

namespace Sending

theorem start (session : Session σ) (service : Service) (side : Side) (outlet : Outlet)
    (state : σ) : Sending (.start session service side outlet state) [] [] [] where
  commands := rfl
  requests := rfl
  oneway := List.forall_mem_nil _
  numbered := by
    intro before x after empty
    cases before <;> cases empty
  queue _ := rfl
  closed := by
    intro ended
    cases ended
  nextId _ _ := rfl
  waiting := by
    intro _ _ id call waits
    cases waits

/-- Nothing is written, and what is asked for is queued. -/
theorem more (h : Sending c t sent rest) (unwritten : Trace.requests effects = [])
    (queued : d.queue = c.queue ++ Trace.commands effects)
    (nextId : d.pending.nextId = c.pending.nextId)
    (waiting : d.pending.waiting ⊆ c.pending.waiting) (same : d.isOver = c.isOver)
    (ended : c.isOver = true → d.phase = c.phase) :
    Sending d (t ++ effects) sent (rest ++ Trace.commands effects) where
  commands := by rw [Trace.commands_append, h.commands, List.append_assoc]
  requests := by rw [Trace.requests_append, h.requests, unwritten, List.append_nil]
  oneway := h.oneway
  numbered := h.numbered
  queue goes_on := by rw [queued, h.queue (same ▸ goes_on)]
  closed := by
    intro phase
    have was_over : c.isOver = true := by
      rw [← same, isOver, phase]
    obtain read | ⟨behind, rfl⟩ := h.closed (ended was_over ▸ phase)
    · exact .inl (List.mem_append_left _ read)
    · exact .inr ⟨behind ++ Trace.commands effects, rfl⟩
  nextId goes_on few := by rw [nextId, h.nextId (same ▸ goes_on) few]
  waiting goes_on few := fun hmem => h.waiting (same ▸ goes_on) few (waiting hmem)

/-- The connection ends. What is left then is left for good. -/
theorem finish (h : Sending c t sent rest) {error : Option ProtocolError}
    (closed : error = Option.none → .received .closed ∈ t ∨ ∃ behind, rest = .close :: behind) :
    Sending (d.finish error).1 (t ++ (d.finish error).2) sent rest where
  commands := by
    have none_queued : Trace.commands (d.finish error).2 = [] :=
      Accounts.view_finish Effect.command? error rfl fun _ _ => rfl
    rw [Trace.commands_append, none_queued, h.commands, List.append_nil]
  requests := by
    have none_written : Trace.requests (d.finish error).2 = [] :=
      Accounts.view_finish Effect.requested? error rfl fun _ _ => rfl
    rw [Trace.requests_append, none_written, h.requests, List.append_nil]
  oneway := h.oneway
  numbered := h.numbered
  queue := by
    intro running
    cases running
  closed phase := (closed (Phase.ended.inj phase)).imp_left (List.mem_append_left _)
  nextId := by
    intro running
    cases running
  waiting := by
    intro running
    cases running

theorem fail (h : Sending c t sent rest) (error : ProtocolError) :
    Sending (d.fail error).1 (t ++ (d.fail error).2) sent rest := by
  refine h.finish fun none => ?_
  cases none

/-- Before the cycle of ids has come round, a two-way call gets the next number. -/
theorem register (h : Sending c t sent rest) (running : c.isOver = false)
    (few : Sent.twoWays sent + 1 < UInt64.size) (call : Call) :
    c.pending.register? call = some (c.pending.nextId,
      { waiting := (c.pending.nextId, call) :: c.pending.waiting
        nextId := c.pending.nextId.next }) := by
  refine PendingCalls.register?_of_fresh call (PendingCalls.find?_eq_none_iff.mpr fun taken => ?_)
  obtain ⟨⟨id, waiter⟩, waits, same⟩ := List.mem_map.mp taken
  have below := h.waiting running few waits
  have next := h.nextId running few
  rw [← show id = c.pending.nextId from same] at next
  omega

theorem taken_twoWay (h : Sending c t sent rest) {call : Call} {id : CallbackId}
    (taken : Taken c call id d) (running : c.isOver = false)
    (few : Sent.twoWays sent + 1 < UInt64.size) (twoWay : call.procedure.oneway = false) :
    id = c.pending.nextId ∧ d.pending =
      { waiting := (c.pending.nextId, call) :: c.pending.waiting
        nextId := c.pending.nextId.next } := by
  cases taken with
  | oneway _ oneway =>
      rw [twoWay] at oneway
      cases oneway
  | twoWay _ _ registered =>
      rw [h.register running few] at registered
      obtain ⟨rfl, rfl⟩ := Prod.mk.inj (Option.some.inj registered)
      exact ⟨rfl, rfl⟩

/-- The next call is written. -/
theorem write (h : Sending c t sent rest) {call : Call} {id : CallbackId}
    (taken : Taken c call id d) (running : c.isOver = false) (pending : c.pending.WellFormed) :
    Sending d (t ++ [.requested call.ticket (.request call.procedure.name id call.args)])
      (sent ++ [⟨call, id⟩]) d.queue := by
  have queue : c.queue = .call call :: d.queue := by
    cases taken with
    | oneway queue _ => exact queue
    | twoWay queue _ _ => exact queue
  have goes_on : d.isOver = false := taken.isOver.trans running
  constructor
  case commands =>
    rw [Trace.commands_append, h.commands, h.queue running, queue, List.map_append]
    simp
  case requests =>
    rw [Trace.requests_append, h.requests, List.map_append]
    rfl
  case oneway =>
    intro x hmem
    obtain hmem | hmem := List.mem_append.mp hmem
    · exact h.oneway x hmem
    · obtain rfl := List.mem_singleton.mp hmem
      exact taken.unnumbered_iff pending
  case numbered =>
    intro before x after split twoWay few
    -- it is one of the earlier calls, or it is the one that is written now
    obtain ⟨more, earlier⟩ | ⟨more, rfl, later⟩ := split_append split
    · exact h.numbered earlier twoWay few
    · obtain ⟨rfl, last⟩ : more = [] ∧ [⟨call, id⟩] = x :: after := by
        cases more with
        | nil => exact ⟨rfl, later⟩
        | cons y more => simp at later
      obtain ⟨rfl, rfl⟩ := List.cons.inj last
      rw [List.append_nil] at few ⊢
      have answered : call.procedure.oneway = false := by simpa [Sent.isTwoWay] using twoWay
      obtain ⟨rfl, _⟩ := h.taken_twoWay taken running few answered
      exact h.nextId running few
  case queue => exact fun _ => rfl
  case closed =>
    intro phase
    rw [isOver, phase] at goes_on
    cases goes_on
  case nextId =>
    intro _ few
    rw [Sent.twoWays_snoc] at few ⊢
    cases oneway : call.procedure.oneway with
    | true =>
        simp only [Sent.isTwoWay, oneway] at few ⊢
        rw [taken.pending_of_oneway oneway]
        exact h.nextId running few
    | false =>
        simp only [Sent.isTwoWay, oneway, Bool.not_false, if_true] at few ⊢
        have before := Nat.lt_of_succ_lt few
        have next := h.nextId running before
        rw [(h.taken_twoWay taken running before oneway).2, CallbackId.toNat_next, if_neg, next]
        rw [next]
        omega
  case waiting =>
    intro _ few other waiter waits
    rw [Sent.twoWays_snoc] at few ⊢
    cases oneway : call.procedure.oneway with
    | true =>
        simp only [Sent.isTwoWay, oneway] at few ⊢
        rw [taken.pending_of_oneway oneway] at waits
        exact h.waiting running few waits
    | false =>
        simp only [Sent.isTwoWay, oneway, Bool.not_false, if_true] at few ⊢
        have before := Nat.lt_of_succ_lt few
        rw [(h.taken_twoWay taken running before oneway).2] at waits
        obtain new | old := List.mem_cons.mp waits
        · obtain ⟨rfl, _⟩ := Prod.mk.inj new
          exact Nat.le_of_eq (h.nextId running before)
        · exact Nat.le_succ_of_le (h.waiting running before old)

/-! ### Steps -/

/-- Nothing is written and nothing is asked for. -/
theorem aside (h : Sending c t sent rest) (unwritten : Trace.requests effects = [])
    (unqueued : Trace.commands effects = []) (queue : d.queue = c.queue)
    (nextId : d.pending.nextId = c.pending.nextId)
    (waiting : d.pending.waiting ⊆ c.pending.waiting) (same : d.isOver = c.isOver)
    (ended : c.isOver = true → d.phase = c.phase) : Sending d (t ++ effects) sent rest := by
  have more := h.more unwritten (by rw [queue, unqueued, List.append_nil]) nextId waiting same ended
  rwa [unqueued, List.append_nil] at more

theorem apart (h : Sending c t sent rest) (unwritten : Trace.requests effects = [])
    (unqueued : Trace.commands effects = []) : Sending c (t ++ effects) sent rest :=
  h.aside unwritten unqueued rfl rfl (List.Subset.refl _) rfl fun _ => rfl

theorem unmoved (h : Sending c t sent rest) : Sending c (t ++ []) sent rest := h.apart rfl rfl

theorem stuck (h : Sending c t sent rest) (serving : c.phase = .serving) :
    Sending { c with phase := .stuck } (t ++ []) sent rest := by
  have running := not_isOver_of_serving serving
  refine h.aside rfl rfl rfl rfl (List.Subset.refl _) running.symm fun ended => ?_
  rw [running] at ended
  cases ended

theorem asks (h : Sending c t sent rest) {result : Connection σ × List Effect}
    (asks : Asks c result) :
    Sending result.1 (t ++ result.2) sent (rest ++ Trace.commands result.2) := by
  obtain ⟨nextTicket, frame⟩ := asks.frame
  have unwritten : Trace.requests result.2 = [] := by
    refine Trace.view_eq_nil fun effect hmem => ?_
    have asking := asks.asking effect hmem
    cases effect <;> first | rfl | cases asking
  refine h.more unwritten ?_ ?_ ?_ ?_ fun _ => ?_
  · rw [frame]
  · rw [frame]
  · rw [frame]
    exact List.Subset.refl _
  · rw [frame]
    rfl
  · rw [frame]

/-- A handler has run, and what it asks for is queued. -/
theorem ran (h : Sending c t sent rest) (name : String) (args : Values) (run : Run σ) :
    Sending (c.ran run).1 (t ++ .handled name args run.outcome :: (c.ran run).2) sent
      (rest ++ Trace.commands (c.ran run).2) := by
  have handled : Sending { c with state := run.state }
      (t ++ [.handled name args run.outcome]) sent rest :=
    h.aside rfl rfl rfl rfl (List.Subset.refl _) rfl fun _ => rfl
  have submitted := handled.asks (asks_submit { c with state := run.state } run.requests)
  rwa [List.append_assoc] at submitted

theorem serve (h : Sending c t sent rest) (serving : c.phase = .serving) (request : Envelope) :
    ∃ rest, Sending (c.serve request).1 (t ++ (c.serve request).2) sent rest := by
  have served := serves c request
  generalize c.serve request = result at served
  cases served with
  | unknown _ => exact ⟨rest, h.fail _⟩
  | invalid _ _ => exact ⟨rest, h.fail _⟩
  | @stuck procedure args run _ _ =>
      have left := (h.ran procedure.name args run).stuck ((phase_ran c run).trans serving)
      rw [List.append_nil] at left
      exact ⟨_, left⟩
  | @oneway procedure args run response _ _ _ => exact ⟨_, h.ran procedure.name args run⟩
  | @answered procedure args run response _ _ _ _ =>
      have ran := h.ran procedure.name args run
      have answered : Sending (c.ran run).1
          (t ++ .handled procedure.name args run.outcome :: (c.ran run).2 ++ [.responded response])
          sent (rest ++ Trace.commands (c.ran run).2) := ran.apart rfl rfl
      rw [List.append_assoc] at answered
      exact ⟨_, answered⟩
  | @unanswered procedure args run response fault _ _ _ _ =>
      have ran := h.ran procedure.name args run
      have ended : Sending ((c.ran run).1.fail (.transport fault)).1
          (t ++ .handled procedure.name args run.outcome :: (c.ran run).2 ++
            ((c.ran run).1.fail (.transport fault)).2) sent
          (rest ++ Trace.commands (c.ran run).2) := ran.fail _
      rw [List.append_assoc] at ended
      exact ⟨_, ended⟩

theorem receive (h : Sending c t sent rest) (serving : c.phase = .serving) (arrival : Arrival) :
    ∃ rest, Sending (c.receive arrival).1 (t ++ (c.receive arrival).2) sent rest := by
  have read : Sending c (t ++ [.received arrival]) sent rest := h.apart rfl rfl
  suffices acted : ∃ rest, Sending (c.arrive arrival).1
      (t ++ [.received arrival] ++ (c.arrive arrival).2) sent rest by
    rwa [List.append_assoc] at acted
  cases arrival with
  | closed => exact ⟨rest, read.finish fun _ => .inl (by simp)⟩
  | fault fault => exact ⟨rest, read.fail _⟩
  | frame payload =>
      simp only [arrive]
      cases Envelope.ofBytes? payload with
      | none => exact ⟨rest, read.fail _⟩
      | some envelope =>
          simp only
          split
          next => exact read.serve serving envelope
          next =>
            refine ⟨rest, ?_⟩
            unfold settle
            split
            next => exact read.unmoved
            next call pending taken =>
              obtain ⟨_, rfl⟩ := PendingCalls.eq_of_take taken
              exact read.aside rfl rfl rfl rfl List.filter_sublist.subset rfl fun _ => rfl

/-- The next command is taken up: a call is written, or the connection ends, or there is no id. -/
theorem takeCommand (h : Sending c t sent rest) (serving : c.phase = .serving)
    (pending : c.pending.WellFormed) :
    ∃ sent rest, Sending c.takeCommand.1 (t ++ c.takeCommand.2) sent rest := by
  have running := not_isOver_of_serving serving
  by_cases empty : c.queue = []
  · simp only [Connection.takeCommand, empty]
    exact ⟨sent, rest, h.unmoved⟩
  · obtain ⟨behind, queue, step⟩ | ⟨call, id, d, taken, step⟩ | ⟨_, step⟩ :=
      takeCommand_cases empty
    · rw [step]
      exact ⟨sent, rest, h.finish fun _ => .inr ⟨behind, (h.queue running).trans queue⟩⟩
    · rw [step]
      simp only [Connection.write]
      split
      next => exact ⟨_, _, h.write taken running pending⟩
      next fault _ => exact ⟨sent, rest, h.fail _⟩
    · rw [step]
      exact ⟨sent, rest, h.stuck serving⟩

theorem step (h : Sending c t sent rest) (pending : c.pending.WellFormed) (event : Event) :
    ∃ sent rest, Sending (c.step event).1 (t ++ (c.step event).2) sent rest := by
  cases event with
  | call name args => exact ⟨sent, _, h.asks (asks_call c name args)⟩
  | close => exact ⟨sent, _, h.asks (asks_close c)⟩
  | farGone =>
      exact ⟨sent, rest, h.aside rfl rfl rfl rfl (List.Subset.refl _) rfl fun _ => rfl⟩
  | peersGone =>
      simp only [Connection.step]
      split
      next => exact ⟨sent, rest, h.aside rfl rfl rfl rfl (List.Subset.refl _) rfl fun _ => rfl⟩
      next => exact ⟨sent, rest, h.unmoved⟩
  | command =>
      simp only [Connection.step]
      split
      next serving => exact h.takeCommand serving pending
      next => exact ⟨sent, rest, h.unmoved⟩
  | arrival arrival =>
      simp only [Connection.step]
      split
      next serving => exact ⟨sent, h.receive serving arrival⟩
      next => exact ⟨sent, rest, h.unmoved⟩

/-- When the connection has ended, nothing is written and nothing is queued any more. -/
theorem over_step (h : Sending c t sent rest) (ended : c.isOver = true) (event : Event) :
    (c.step event).1.phase = c.phase ∧
      Sending (c.step event).1 (t ++ (c.step event).2) sent rest := by
  have stopped : c.phase ≠ .serving := by
    intro serving
    rw [not_isOver_of_serving serving] at ended
    cases ended
  have asked : ∀ {result : Connection σ × List Effect}, Asks c result →
      result.1.phase = c.phase ∧ Sending result.1 (t ++ result.2) sent rest := by
    intro result asks
    obtain ⟨_, frame⟩ := asks.frame
    have next := h.asks asks
    rw [asks.ended ended, List.append_nil] at next
    exact ⟨by rw [frame], next⟩
  have idle : ∀ {d : Connection σ}, d.queue = c.queue → d.pending = c.pending →
      d.phase = c.phase → d.phase = c.phase ∧ Sending d (t ++ []) sent rest := by
    intro d queue pending phase
    refine ⟨phase, h.aside rfl rfl queue (by rw [pending]) ?_ ?_ fun _ => phase⟩
    · rw [pending]
      exact List.Subset.refl _
    · rw [isOver, phase]
      rfl
  cases event with
  | call name args => exact asked (asks_call c name args)
  | close => exact asked (asks_close c)
  | farGone => exact idle rfl rfl rfl
  | peersGone =>
      rw [Connection.step]
      split <;> exact idle rfl rfl rfl
  | command =>
      rw [Connection.step, if_neg stopped]
      exact idle rfl rfl rfl
  | arrival arrival =>
      rw [Connection.step, if_neg stopped]
      exact idle rfl rfl rfl

/-! ### Runs -/

theorem run (h : Sending c t sent rest) (accounts : Accounts c t) (events : List Event) :
    ∃ sent rest, Sending (c.run events).1 (t ++ (c.run events).2) sent rest := by
  have kept := runSteps_trace_invariant Connection.step
    (P := fun (c : Connection σ) t => Accounts c t ∧ ∃ sent rest, Sending c t sent rest)
    (fun c t event kept => by
      obtain ⟨accounts, sent, rest, h⟩ := kept
      exact ⟨accounts.step event, h.step accounts.pending event⟩)
    ⟨accounts, sent, rest, h⟩ events
  exact kept.2

theorem over_run (h : Sending c t sent rest) (ended : c.isOver = true) (events : List Event) :
    (c.run events).1.phase = c.phase ∧
      Sending (c.run events).1 (t ++ (c.run events).2) sent rest := by
  induction events generalizing c t with
  | nil =>
      refine ⟨rfl, ?_⟩
      rwa [Connection.run, runSteps_nil, List.append_nil]
  | cons event later ih =>
      obtain ⟨phase, next⟩ := h.over_step ended event
      have still : (c.step event).1.isOver = true := by
        rw [← ended, isOver, phase]
        rfl
      obtain ⟨later_phase, kept⟩ := ih next still
      rw [run_cons]
      refine ⟨later_phase.trans phase, ?_⟩
      rwa [← List.append_assoc]

end Sending

end Connection

end DuplexRpc
