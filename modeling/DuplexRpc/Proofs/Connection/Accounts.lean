import DuplexRpc.Proofs.Connection.Moves
import DuplexRpc.Proofs.PendingCalls

/-!
# Accounts of calls

Every call that is made on a connection has a ticket, and at any time the ticket is
either resolved, once, or still with a call that is queued or waits for its response.
Every move keeps these accounts, and so does every response, also one that the far end
has made up.
-/

namespace DuplexRpc

/-- An effect of serving says nothing about calls. -/
theorem Trace.calling_eq_nil {effects : List Effect} (h : ∀ effect ∈ effects, effect.isServing) :
    calls effects = [] ∧ queued effects = [] ∧ requests effects = [] ∧ results effects = [] := by
  refine ⟨view_eq_nil ?_, view_eq_nil ?_, view_eq_nil ?_, view_eq_nil ?_⟩ <;>
    intro effect hmem <;> have hserving := h effect hmem <;>
    cases effect <;> first | rfl | cases hserving

namespace Connection

variable {σ : Type} {c d : Connection σ} {t : List Effect}

abbrev calls (c : Connection σ) : List Call := c.queue.filterMap Command.call?

theorem unresolved_eq (c : Connection σ) :
    c.unresolved = (c.pending.waiting.map (·.2.ticket)).reverse ++
      (c.calls.filter (!·.procedure.oneway)).map (·.ticket) := by
  have queued : ∀ queue : List Command, queue.filterMap Command.awaited? =
      ((queue.filterMap Command.call?).filter (!·.procedure.oneway)).map (·.ticket) := by
    intro queue
    induction queue with
    | nil => rfl
    | cons command rest ih =>
        cases command with
        | close => exact ih
        | call call => cases ho : call.procedure.oneway <;> simp [ho, ih]
  exact congrArg _ (queued c.queue)

theorem calls_of_close {rest : List Command} (hq : c.queue = .close :: rest) :
    c.calls = rest.filterMap Command.call? := by
  rw [calls, hq]
  rfl

/-- What is on record of a call that waits for its response under an id. -/
structure Waits (t : List Effect) (id : CallbackId) (call : Call) : Prop where
  queued : call ∈ Trace.queued t
  twoWay : call.procedure.oneway = false
  requested : (call.ticket, .request call.procedure.name id call.args) ∈ Trace.requests t

theorem Waits.append {id : CallbackId} {call : Call} (h : Waits t id call)
    (effects : List Effect) : Waits (t ++ effects) id call :=
  ⟨Trace.mem_view_append_left h.queued, h.twoWay, Trace.mem_view_append_left h.requested⟩

/-- What is on record of a call that has been queued. -/
def Prepared (peer : Peer) (t : List Effect) (call : Call) : Prop :=
  ∃ name args, .called call.ticket name args ∈ t ∧
    peer.prepare name args = .ok (call.procedure, call.args)

theorem Prepared.append {peer : Peer} {call : Call} (h : Prepared peer t call)
    (effects : List Effect) : Prepared peer (t ++ effects) call := by
  obtain ⟨name, args, hcalled, hprepare⟩ := h
  exact ⟨name, args, List.mem_append_left _ hcalled, hprepare⟩

/-- The accounts that a connection keeps of the calls made on it. -/
structure Accounts (c : Connection σ) (t : List Effect) : Prop where
  /-- Every call gets the next ticket. -/
  made : Trace.calls t = List.range c.nextTicket
  /-- Every ticket is resolved once or belongs to one call without a result. -/
  tickets : ((Trace.results t).map (·.1) ++ c.unresolved).Perm (List.range c.nextTicket)
  ascending : ((Trace.queued t).map (·.ticket)).Pairwise (· < ·)
  bound : ∀ call ∈ Trace.queued t, call.ticket < c.nextTicket
  prepared : ∀ call ∈ Trace.queued t, Prepared c.peer t call
  queued : ∀ call ∈ c.calls, call ∈ Trace.queued t
  /-- Requests are written in the order in which their calls were queued. -/
  order : ((Trace.requests t).map (·.1) ++ c.calls.map (·.ticket)).Pairwise (· < ·)
  requested : ∀ {ticket request}, (ticket, request) ∈ Trace.requests t →
    ∃ call ∈ Trace.queued t, ∃ id, call.ticket = ticket ∧
      request = .request call.procedure.name id call.args
  waiting : ∀ {id call}, (id, call) ∈ c.pending.waiting → Waits t id call
  pending : c.pending.WellFormed
  ended : c.isOver = true → c.queue = [] ∧ c.pending.waiting = []

/-! ### Taking a call -/

section

variable {call : Call} {id : CallbackId} (h : Taken c call id d)
include h

theorem Taken.nextTicket : d.nextTicket = c.nextTicket := by cases h <;> rfl

theorem Taken.phase : d.phase = c.phase := by cases h <;> rfl

theorem Taken.isOver : d.isOver = c.isOver := by cases h <;> rfl

theorem Taken.calls : c.calls = call :: d.calls := by
  cases h with
  | oneway hq _ => simp [Connection.calls, hq]
  | twoWay hq _ _ => simp [Connection.calls, hq]

theorem Taken.unresolved : d.unresolved = c.unresolved := by
  rw [unresolved_eq, unresolved_eq, h.calls]
  cases h with
  | oneway _ ho => simp [ho]
  | twoWay _ ho hr =>
      obtain ⟨rfl, _⟩ := PendingCalls.eq_of_register? hr
      simp [ho]

theorem Taken.pending (hc : c.pending.WellFormed) : d.pending.WellFormed := by
  cases h with
  | oneway _ _ => exact hc
  | twoWay _ _ hr => exact hc.register? hr

end

theorem pairwise_lt_snoc {l : List Nat} {n : Nat} (h : l.Pairwise (· < ·)) (hn : ∀ m ∈ l, m < n) :
    (l ++ [n]).Pairwise (· < ·) := by
  refine List.pairwise_append.mpr ⟨h, List.pairwise_singleton _ _, fun m hm k hk => ?_⟩
  rw [List.mem_singleton.mp hk]
  exact hn m hm

namespace Accounts

theorem start (session : Session σ) (service : Service) (side : Side) (outlet : Outlet)
    (state : σ) : Accounts (.start session service side outlet state) [] where
  made := rfl
  tickets := .refl _
  ascending := .nil
  bound := nofun
  prepared := nofun
  queued := nofun
  order := .nil
  requested := nofun
  waiting := nofun
  pending := .empty
  ended := nofun

theorem bound_of_requested (h : Accounts c t) {entry : Nat × Envelope}
    (hmem : entry ∈ Trace.requests t) : entry.1 < c.nextTicket := by
  obtain ⟨call, hcall, _, hticket, _⟩ := h.requested hmem
  exact hticket ▸ h.bound call hcall

theorem bound_of_sent (h : Accounts c t) {ticket : Nat}
    (hmem : ticket ∈ (Trace.requests t).map (·.1) ++ c.calls.map (·.ticket)) :
    ticket < c.nextTicket := by
  rcases List.mem_append.mp hmem with hmem | hmem
  · obtain ⟨entry, hentry, rfl⟩ := List.mem_map.mp hmem
    exact h.bound_of_requested hentry
  · obtain ⟨call, hcall, rfl⟩ := List.mem_map.mp hmem
    exact h.bound call (h.queued call hcall)

/-- Most moves add no call and write no request. Then it is enough to look at the tickets. -/
theorem of_quiet (h : Accounts c t) {effects : List Effect} (hqueued : Trace.queued effects = [])
    (hrequests : Trace.requests effects = []) (hpeer : d.peer = c.peer)
    (hnext : c.nextTicket ≤ d.nextTicket)
    (hmade : Trace.calls (t ++ effects) = List.range d.nextTicket)
    (htickets : ((Trace.results (t ++ effects)).map (·.1) ++ d.unresolved).Perm
      (List.range d.nextTicket))
    (hcalls : d.calls.Sublist c.calls) (hwaiting : d.pending.waiting ⊆ c.pending.waiting)
    (hpending : d.pending.WellFormed)
    (hover : d.isOver = true → d.queue = [] ∧ d.pending.waiting = []) :
    Accounts d (t ++ effects) := by
  have hqueued : Trace.queued (t ++ effects) = Trace.queued t := by simp [hqueued]
  have hrequests : Trace.requests (t ++ effects) = Trace.requests t := by simp [hrequests]
  constructor
  case made => exact hmade
  case tickets => exact htickets
  case ascending =>
    rw [hqueued]
    exact h.ascending
  case bound =>
    rw [hqueued]
    exact fun call hmem => Nat.lt_of_lt_of_le (h.bound call hmem) hnext
  case prepared =>
    rw [hqueued, hpeer]
    exact fun call hmem => (h.prepared call hmem).append effects
  case queued =>
    rw [hqueued]
    exact fun call hmem => h.queued call (hcalls.subset hmem)
  case order =>
    rw [hrequests]
    exact h.order.sublist ((List.Sublist.refl _).append (hcalls.map _))
  case requested =>
    rw [hrequests, hqueued]
    exact h.requested
  case waiting => exact fun hmem => (h.waiting (hwaiting hmem)).append effects
  case pending => exact hpending
  case ended => exact hover

/-- The accounts do not change as long as nothing happens to a call. -/
theorem congr (h : Accounts c t) {effects : List Effect}
    (heffects : Trace.calls effects = [] ∧ Trace.queued effects = [] ∧
      Trace.requests effects = [] ∧ Trace.results effects = [])
    (hpeer : d.peer = c.peer) (hnext : d.nextTicket = c.nextTicket) (hcalls : d.calls = c.calls)
    (hpending : d.pending = c.pending)
    (hover : d.isOver = true → d.queue = [] ∧ d.pending.waiting = []) :
    Accounts d (t ++ effects) := by
  obtain ⟨hmade, hqueued, hrequests, hresults⟩ := heffects
  have unresolved : d.unresolved = c.unresolved := by
    rw [unresolved_eq, unresolved_eq, hcalls, hpending]
  refine h.of_quiet hqueued hrequests hpeer (by omega) ?_ ?_ ?_ ?_ ?_ hover
  · simp [hmade, hnext, h.made]
  · simpa [hresults, hnext, unresolved] using h.tickets
  · exact hcalls ▸ List.Sublist.refl _
  · exact fun _ hmem => hpending ▸ hmem
  · rw [hpending]
    exact h.pending

/-! ### Moves -/

/-- A call gets its result at once. -/
theorem turnedAway (h : Accounts c t) (name : String) (args : Values)
    (result : Except CallError Values) :
    Accounts { c with nextTicket := c.nextTicket + 1 }
      (t ++ [.called c.nextTicket name args, .resolved c.nextTicket result]) := by
  refine h.of_quiet (by simp) (by simp) rfl (Nat.le_succ _) ?_ ?_ (.refl _)
    (List.Subset.refl _) h.pending h.ended
  · simp [h.made, List.range_succ]
  · have grown := (h.tickets.append_right [c.nextTicket])
    rw [List.append_assoc] at grown
    rw [List.range_succ]
    refine .trans ?_ grown
    rw [Trace.results, Trace.view_append, List.map_append, List.append_assoc]
    exact List.perm_append_comm.append_left _

theorem results_finish (error : Option ProtocolError) :
    Trace.results (c.finish error).2 =
      c.unresolved.map fun ticket => (ticket, .error .connectionClosed) := by
  simp only [finish, Trace.results, Trace.view_cons]
  induction c.unresolved with
  | nil => rfl
  | cons ticket rest ih => simpa using ih

theorem view_finish {α : Type} (kind : Effect → Option α) (error : Option ProtocolError)
    (hstopped : kind (.stopped error) = none)
    (hresolved : ∀ ticket result, kind (.resolved ticket result) = none) :
    Trace.view kind (c.finish error).2 = [] := by
  refine Trace.view_eq_nil fun effect hmem => ?_
  rcases List.mem_cons.mp hmem with rfl | hmem
  · exact hstopped
  · obtain ⟨ticket, _, rfl⟩ := List.mem_map.mp hmem
    exact hresolved _ _

/-- To end a connection resolves what was not resolved, and only that. -/
theorem finish (h : Accounts c t) (error : Option ProtocolError) (hpeer : d.peer = c.peer)
    (hunresolved : d.unresolved = c.unresolved) (hnext : d.nextTicket = c.nextTicket)
    (hpending : d.pending.nextId ≠ .none) :
    Accounts (d.finish error).1 (t ++ (d.finish error).2) := by
  have made := view_finish (c := d) Effect.called? error rfl fun _ _ => rfl
  refine h.of_quiet (view_finish _ _ rfl fun _ _ => rfl) (view_finish _ _ rfl fun _ _ => rfl)
    hpeer (Nat.le_of_eq hnext.symm) ?_ ?_ (List.nil_sublist _) (List.nil_subset _)
    ⟨List.nodup_nil, List.not_mem_nil, hpending⟩ fun _ => ⟨rfl, rfl⟩
  · simp only [Trace.view_append, made, List.append_nil, h.made, ← hnext]
    rfl
  · have none_left : (d.finish error).1.unresolved = [] := rfl
    have same : (d.finish error).1.nextTicket = c.nextTicket := hnext
    simpa [none_left, same, results_finish, Function.comp_def, hunresolved] using h.tickets

/-- The request of the next call is written. -/
theorem sent (h : Accounts c t) {call : Call} {id : CallbackId} (htaken : Taken c call id d) :
    Accounts d
      (t ++ [.requested call.ticket (.request call.procedure.name id call.args)]) := by
  have hcalls := htaken.calls
  have hhead : call ∈ Trace.queued t := h.queued call (hcalls ▸ List.mem_cons_self)
  constructor
  case made => simp [htaken.nextTicket, h.made]
  case tickets => simpa [htaken.nextTicket, htaken.unresolved] using h.tickets
  case ascending => simpa using h.ascending
  case bound => simpa [htaken.nextTicket] using h.bound
  case prepared =>
    rw [htaken.fixed.peer]
    exact fun call hmem => (h.prepared call (by simpa using hmem)).append _
  case queued =>
    intro other hmem
    simpa using h.queued other (hcalls ▸ List.mem_cons_of_mem _ hmem)
  case order => simpa [hcalls] using h.order
  case requested =>
    intro ticket request hmem
    rw [Trace.requests, Trace.view_append, List.mem_append] at hmem
    rcases hmem with hmem | hmem
    · simpa using h.requested hmem
    · simp only [Trace.view_cons, Trace.view_nil, Effect.requested?, Option.toList_some,
        List.append_nil, List.mem_singleton, Prod.mk.injEq] at hmem
      exact ⟨call, by simpa using hhead, id, hmem.1.symm, hmem.2⟩
  case waiting =>
    intro other waiter hmem
    cases htaken with
    | oneway _ _ => exact (h.waiting hmem).append _
    | twoWay _ ho hr =>
        obtain ⟨rfl, _⟩ := PendingCalls.eq_of_register? hr
        rcases List.mem_cons.mp hmem with heq | hmem
        · obtain ⟨rfl, rfl⟩ := Prod.mk.inj heq
          exact ⟨by simpa using hhead, ho, by simp⟩
        · exact (h.waiting hmem).append _
  case pending => exact htaken.pending h.pending
  case ended =>
    intro hover
    rw [htaken.isOver] at hover
    simp [calls, (h.ended hover).1] at hcalls

theorem not_isOver_of_accepts (h : c.accepts = true) : c.isOver = false := by
  simp only [accepts, Bool.and_eq_true, Bool.not_eq_true'] at h
  exact h.1

/-- A call that is queued gets its result later, unless it is a oneway call. -/
theorem queue (h : Accounts c t) {name : String} {args : Values} {call : Call}
    (hprepare : c.peer.prepare name args = .ok (call.procedure, call.args))
    (haccepts : c.accepts = true) (hticket : call.ticket = c.nextTicket) :
    Accounts { c with nextTicket := c.nextTicket + 1, queue := c.queue ++ [.call call] }
      (t ++ (.called call.ticket name args :: .queued (.call call) ::
        if call.procedure.oneway then [.resolved call.ticket (.ok .empty)] else [])) := by
  generalize hd : ({ c with nextTicket := c.nextTicket + 1, queue := c.queue ++ [.call call] } :
    Connection σ) = d
  have hcalls : d.calls = c.calls ++ [call] := by simp [← hd, calls]
  have hunresolved :
      d.unresolved = c.unresolved ++ if call.procedure.oneway then [] else [call.ticket] := by
    rw [unresolved_eq, hcalls, unresolved_eq, ← hd]
    cases ho : call.procedure.oneway <;> simp [ho]
  have hnext : d.nextTicket = c.nextTicket + 1 := by rw [← hd]
  generalize hlast : (if call.procedure.oneway = true then
    [Effect.resolved call.ticket (.ok .empty)] else []) = last
  have quiet : Trace.calls last = [] ∧ Trace.queued last = [] ∧ Trace.requests last = [] := by
    rw [← hlast]
    split <;> simp
  obtain ⟨hmade, hqueued, hrequests⟩ := quiet
  have hmem : ∀ {other}, other ∈ Trace.queued (t ++ (.called call.ticket name args ::
      .queued (.call call) :: last)) ↔ other ∈ Trace.queued t ∨ other = call := by
    simp [hqueued]
  constructor
  case made => simp [h.made, hmade, hticket, hnext, List.range_succ]
  case tickets =>
    have grown := h.tickets.append_right [c.nextTicket]
    rw [hunresolved, hnext, List.range_succ, ← hlast, ← hticket] at *
    cases ho : call.procedure.oneway with
    | true =>
        refine .trans ?_ grown
        have swap : ([call.ticket] ++ c.unresolved).Perm (c.unresolved ++ [call.ticket]) :=
          List.perm_append_comm
        simpa using swap.append_left ((Trace.results t).map (·.1))
    | false => simpa using grown
  case ascending =>
    have := pairwise_lt_snoc h.ascending (n := call.ticket) (by simpa [hticket] using h.bound)
    simpa [hqueued] using this
  case bound =>
    intro other hother
    rcases hmem.mp hother with hother | rfl
    · exact hnext ▸ Nat.lt_succ_of_lt (h.bound other hother)
    · exact hnext ▸ hticket ▸ Nat.lt_succ_self _
  case prepared =>
    intro other hother
    rw [show d.peer = c.peer by rw [← hd]; rfl]
    rcases hmem.mp hother with hother | rfl
    · exact (h.prepared other hother).append _
    · exact ⟨name, args, by simp, hprepare⟩
  case queued =>
    intro other hother
    rw [hcalls, List.mem_append, List.mem_singleton] at hother
    exact hmem.mpr (hother.imp (h.queued other) id)
  case order =>
    have := pairwise_lt_snoc h.order (n := call.ticket) fun _ hm => hticket ▸ h.bound_of_sent hm
    simpa [hcalls, hrequests] using this
  case requested =>
    intro ticket request hrequest
    have hold : (ticket, request) ∈ Trace.requests t := by simpa [hrequests] using hrequest
    obtain ⟨other, hother, found⟩ := h.requested hold
    exact ⟨other, hmem.mpr (.inl hother), found⟩
  case waiting => exact hd ▸ fun hmem => (h.waiting hmem).append _
  case pending => exact hd ▸ h.pending
  case ended =>
    intro hover
    have hover : c.isOver = true := by rwa [← hd] at hover
    rw [not_isOver_of_accepts haccepts] at hover
    cases hover

/-- Every move keeps the accounts. -/
theorem move {effects : List Effect} (h : Accounts c t) (hmove : Move c effects d) :
    Accounts d (t ++ effects) := by
  cases hmove with
  | aside state hasPeers outlet hserving _ =>
      exact h.congr (Trace.calling_eq_nil hserving) rfl rfl rfl rfl h.ended
  | stuck _ => exact h.congr (by simp) rfl rfl rfl rfl nofun
  | rejected _ => exact h.turnedAway _ _ _
  | unheard _ _ => exact h.turnedAway _ _ _
  | queued hprepare haccepts hticket => exact h.queue hprepare haccepts hticket
  | closing haccepts =>
      refine h.congr (by simp) rfl rfl (by simp [calls]) rfl fun hover => ?_
      exact absurd (show c.isOver = true from hover) (by simp [not_isOver_of_accepts haccepts])
  | takeClose hq =>
      refine h.congr (by simp) rfl rfl (calls_of_close hq).symm rfl fun hover => ?_
      rw [(h.ended hover).1] at hq
      cases hq
  | sent htaken => exact h.sent htaken
  | unsent fault htaken =>
      exact h.finish _ htaken.fixed.peer htaken.unresolved htaken.nextTicket
        (htaken.pending h.pending).nextId
  | ended error => exact h.finish error rfl rfl rfl h.pending.nextId

end Accounts

/-! ### Responses -/

theorem settle_of_none {response : Envelope} (h : c.pending.find? response.callbackId = none) :
    c.settle response = (c, []) := by
  simp only [settle, PendingCalls.take, h, Option.map_none]

theorem settle_of_some {response : Envelope} {call : Call}
    (h : c.pending.find? response.callbackId = some call) :
    c.settle response =
      ({ c with pending := { c.pending with
          waiting := c.pending.waiting.filter (·.1 != response.callbackId) } },
        [.resolved call.ticket (resultOf call.procedure response)]) := by
  simp only [settle, PendingCalls.take, h, Option.map_some]

namespace Accounts

/-- A response resolves the call that waits under its id, and no other. -/
theorem settle (h : Accounts c t) (arrival : Arrival) (response : Envelope) :
    Accounts (c.settle response).1 (t ++ .received arrival :: (c.settle response).2) := by
  cases hf : c.pending.find? response.callbackId with
  | none =>
      rw [settle_of_none hf]
      exact h.congr (by simp) rfl rfl rfl rfl h.ended
  | some call =>
      obtain ⟨later, earlier, hsplit⟩ := PendingCalls.split_of_find? hf
      have left := h.pending.filter_waiting hsplit
      rw [settle_of_some hf]
      refine h.of_quiet (by simp) (by simp) rfl (Nat.le_refl _) (by simp [h.made]) ?_ (.refl _)
        List.filter_sublist.subset ?_ fun hover => ?_
      · have tickets := h.tickets
        rw [unresolved_eq, hsplit] at tickets
        rw [unresolved_eq, left]
        refine .trans ?_ tickets
        simpa using List.Perm.append_left _ (List.perm_middle.symm)
      · exact h.pending.take (by rw [PendingCalls.take, hf, Option.map_some])
      · obtain ⟨hqueue, hwaiting⟩ := h.ended hover
        exact ⟨hqueue, by simp [hwaiting]⟩

/-- Every step keeps the accounts. -/
theorem step (h : Accounts c t) (event : Event) :
    Accounts (c.step event).1 (t ++ (c.step event).2) := by
  rcases step_cases c event with hmoves | ⟨payload, response, _, _, _, _, hstep⟩
  · exact hmoves.invariant (fun hmove hc => hc.move hmove) h
  · rw [hstep]
    exact h.settle _ response

theorem run (h : Accounts c t) (events : List Event) :
    Accounts (c.run events).1 (t ++ (c.run events).2) :=
  runSteps_trace_invariant Connection.step (P := Accounts)
    (fun _ _ event hc => hc.step event) h events

end Accounts

end Connection

end DuplexRpc
