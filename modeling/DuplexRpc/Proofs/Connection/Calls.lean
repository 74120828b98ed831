import DuplexRpc.Proofs.Connection.Accounts

/-!
# What becomes of calls

No call is lost and none gets two results, whatever the far end sends. A call that has
been queued is in the queue, waits for its response or has its result. A response can
only settle the call whose request carried its id, and when the connection ends every
call that has no result fails.
-/

namespace DuplexRpc

/-! ### Distinct tickets -/

theorem eq_of_pairwise_lt {calls : List Call} (h : (calls.map (·.ticket)).Pairwise (· < ·))
    {a b : Call} (ha : a ∈ calls) (hb : b ∈ calls) (same : a.ticket = b.ticket) : a = b := by
  induction calls with
  | nil => exact absurd ha List.not_mem_nil
  | cons call rest ih =>
      obtain ⟨first, hrest⟩ := List.pairwise_cons.mp h
      have greater : ∀ other ∈ rest, call.ticket < other.ticket :=
        fun other hmem => first _ (List.mem_map_of_mem hmem)
      rcases List.mem_cons.mp ha with rfl | earlier
      · rcases List.mem_cons.mp hb with rfl | later
        · rfl
        · exact absurd same (Nat.ne_of_lt (greater b later))
      · rcases List.mem_cons.mp hb with rfl | later
        · exact absurd same.symm (Nat.ne_of_lt (greater a earlier))
        · exact ih hrest earlier later

theorem count_ticket {calls among : List Call} (h : (among.map (·.ticket)).Pairwise (· < ·))
    (hsubset : ∀ call ∈ calls, call ∈ among) {call : Call} (hcall : call ∈ among) :
    (calls.map (·.ticket)).count call.ticket = calls.count call := by
  induction calls with
  | nil => rfl
  | cons other rest ih =>
      have same : other.ticket = call.ticket ↔ other = call :=
        ⟨eq_of_pairwise_lt h (hsubset other List.mem_cons_self) hcall, fun e => e ▸ rfl⟩
      rw [List.map_cons, List.count_cons, List.count_cons,
        ih fun call hmem => hsubset call (List.mem_cons_of_mem _ hmem)]
      simp [same]

namespace Connection

variable {σ : Type} {c d : Connection σ} {t : List Effect}

namespace Accounts

theorem nodup (h : Accounts c t) : ((Trace.results t).map (·.1) ++ c.unresolved).Nodup :=
  h.tickets.nodup_iff.mpr List.nodup_range

theorem eq_of_ticket_eq (h : Accounts c t) {a b : Call} (ha : a ∈ Trace.queued t)
    (hb : b ∈ Trace.queued t) (same : a.ticket = b.ticket) : a = b :=
  eq_of_pairwise_lt h.ascending ha hb same

/-- A ticket stands for one call. -/
theorem eq_of_called (h : Accounts c t) {ticket : Nat} {name other : String} {args more : Values}
    (ha : .called ticket name args ∈ t) (hb : .called ticket other more ∈ t) :
    name = other ∧ args = more := by
  have hnodup : (Trace.calls t).Nodup := h.made ▸ List.nodup_range
  have same := Effect.called.inj (Trace.eq_of_view_nodup hnodup ha hb rfl rfl)
  exact same.2

/-- A ticket has one result. -/
theorem eq_of_results (h : Accounts c t) {ticket : Nat} {result other : Except CallError Values}
    (hr : (ticket, result) ∈ Trace.results t) (ho : (ticket, other) ∈ Trace.results t) :
    result = other := by
  exact Trace.eq_of_keys_nodup (List.nodup_append.mp h.nodup).1 hr ho

/-- A ticket has one request. -/
theorem eq_of_requests (h : Accounts c t) {ticket : Nat} {request other : Envelope}
    (hr : (ticket, request) ∈ Trace.requests t) (ho : (ticket, other) ∈ Trace.requests t) :
    request = other := by
  have hnodup : ((Trace.requests t).map (·.1)).Nodup :=
    (List.pairwise_append.mp h.order).1.imp Nat.ne_of_lt
  exact Trace.eq_of_keys_nodup hnodup hr ho

/-- A two-way call that has been queued is in exactly one place. -/
theorem one_place (h : Accounts c t) {call : Call} (hcall : call ∈ Trace.queued t)
    (htwo : call.procedure.oneway = false) :
    c.calls.count call + (c.pending.waiting.map (·.2)).count call +
      ((Trace.results t).map (·.1)).count call.ticket = 1 := by
  have inQueue : ((c.calls.filter (!·.procedure.oneway)).map (·.ticket)).count call.ticket =
      c.calls.count call := by
    rw [count_ticket h.ascending
      (fun other hmem => h.queued other (List.mem_filter.mp hmem).1) hcall]
    exact List.count_filter (by simp [htwo])
  have inTable : (c.pending.waiting.map (·.2.ticket)).count call.ticket =
      (c.pending.waiting.map (·.2)).count call := by
    rw [← count_ticket h.ascending (fun other hmem => ?_) hcall, List.map_map]
    · rfl
    · obtain ⟨⟨id, waiter⟩, hentry, rfl⟩ := List.mem_map.mp hmem
      exact (h.waiting hentry).queued
  have one : (List.range c.nextTicket).count call.ticket = 1 := by
    rw [List.count_range, if_pos (h.bound call hcall)]
  rw [← h.tickets.count_eq, unresolved_eq, List.count_append, List.count_append,
    List.count_reverse, inQueue, inTable] at one
  omega

end Accounts

/-! ### Results from this end -/

/-- The results that calls get without the far end: a failed check, the end of the connection, or
that nothing is awaited. -/
inductive ResolvedHere (peer : Peer) (t : List Effect) : Nat × Except CallError Values → Prop
  | rejected {ticket : Nat} {name : String} {args : Values} {error : CallError}
      (hcalled : .called ticket name args ∈ t) (hprepare : peer.prepare name args = .error error) :
      ResolvedHere peer t (ticket, .error error)
  | closed (ticket : Nat) : ResolvedHere peer t (ticket, .error .connectionClosed)
  | oneway {call : Call} (hqueued : call ∈ Trace.queued t)
      (honeway : call.procedure.oneway = true) : ResolvedHere peer t (call.ticket, .ok .empty)

theorem ResolvedHere.mono {peer : Peer} {u : List Effect}
    {entry : Nat × Except CallError Values} (h : ResolvedHere peer t entry) (hsubset : t ⊆ u) :
    ResolvedHere peer u entry := by
  cases h with
  | rejected hcalled hprepare => exact .rejected (hsubset hcalled) hprepare
  | closed ticket => exact .closed ticket
  | oneway hqueued honeway =>
      obtain ⟨effect, hmem, hcall⟩ := Trace.mem_view.mp hqueued
      exact .oneway (Trace.mem_view.mpr ⟨effect, hsubset hmem, hcall⟩) honeway

/-- No move takes a result from the far end. -/
theorem Move.resolvedHere {effects : List Effect} (h : Move c effects d) :
    ∀ entry ∈ Trace.results effects, ResolvedHere c.peer effects entry := by
  cases h with
  | aside _ _ _ hserving _ =>
      rw [(Trace.calling_eq_nil hserving).2.2.2]
      exact nofun
  | rejected hprepare =>
      intro entry hmem
      obtain rfl : entry = _ := by simpa using hmem
      exact .rejected (by simp) hprepare
  | unheard _ _ =>
      intro entry hmem
      obtain rfl : entry = _ := by simpa using hmem
      exact .closed _
  | @queued _ _ call _ _ _ =>
      intro entry hmem
      cases ho : call.procedure.oneway with
      | true =>
          obtain rfl : entry = (call.ticket, .ok .empty) := by simpa [ho] using hmem
          exact .oneway (by simp) ho
      | false => simp [ho] at hmem
  | unsent _ _ =>
      intro entry hmem
      simp only [fail, Accounts.results_finish, List.mem_map] at hmem
      obtain ⟨ticket, _, rfl⟩ := hmem
      exact .closed ticket
  | ended _ =>
      intro entry hmem
      simp only [Accounts.results_finish, List.mem_map] at hmem
      obtain ⟨ticket, _, rfl⟩ := hmem
      exact .closed ticket
  | _ => simp

theorem Moves.resolvedHere {effects : List Effect} (h : Moves c effects d) :
    ∀ entry ∈ Trace.results effects, ResolvedHere c.peer effects entry := by
  induction h with
  | refl => simp
  | @cons c d e first later hmove _ ih =>
      intro entry hmem
      rw [Trace.results, Trace.view_append, List.mem_append] at hmem
      rcases hmem with hmem | hmem
      · exact (hmove.resolvedHere entry hmem).mono (List.subset_append_left _ _)
      · exact (hmove.fixed.peer ▸ ih entry hmem).mono (List.subset_append_right _ _)

/-- A call that awaits a response is not resolved from this end but by the end of the
connection. -/
theorem Accounts.eq_closed_of_resolvedHere (h : Accounts c t) {call : Call}
    (hcall : call ∈ Trace.queued t) (htwo : call.procedure.oneway = false)
    {result : Except CallError Values} (hr : ResolvedHere c.peer t (call.ticket, result)) :
    result = .error .connectionClosed := by
  generalize hentry : (call.ticket, result) = entry at hr
  cases hr with
  | rejected hcalled hprepare =>
      obtain ⟨hticket, rfl⟩ := Prod.mk.inj hentry
      obtain ⟨name, args, hmade, hok⟩ := h.prepared call hcall
      obtain ⟨rfl, rfl⟩ := h.eq_of_called hmade (hticket ▸ hcalled)
      rw [hok] at hprepare
      cases hprepare
  | closed ticket => exact (Prod.mk.inj hentry).2
  | oneway hqueued honeway =>
      obtain rfl := h.eq_of_ticket_eq hcall hqueued (Prod.mk.inj hentry).1
      rw [htwo] at honeway
      cases honeway

/-! ### Waiting calls -/

/-- The calls that wait are those without a result whose request has been written. -/
theorem Accounts.find?_eq_some_iff (h : Accounts c t) {id : CallbackId} {call : Call} :
    c.pending.find? id = some call ↔
      Waits t id call ∧ call.ticket ∉ (Trace.results t).map (·.1) := by
  rw [h.pending.find?_eq_some_iff]
  constructor
  · intro hmem
    have waits := h.waiting hmem
    refine ⟨waits, fun hresolved => ?_⟩
    have place := h.one_place waits.queued waits.twoWay
    have inTable := List.count_pos_iff.mpr (List.mem_map_of_mem (f := (·.2)) hmem)
    have inResults := List.count_pos_iff.mpr hresolved
    simp only at inTable
    omega
  · rintro ⟨waits, hresolved⟩
    have place := h.one_place waits.queued waits.twoWay
    rw [List.count_eq_zero.mpr hresolved] at place
    -- Its request has been written, so it is not in the queue any more.
    have taken : call ∉ c.calls := by
      intro hmem
      have distinct := (List.pairwise_append.mp h.order).2.2
      exact Nat.lt_irrefl _ (distinct _ (List.mem_map_of_mem waits.requested) _
        (List.mem_map_of_mem hmem))
    rw [List.count_eq_zero.mpr taken] at place
    obtain ⟨⟨other, waiter⟩, hmem, rfl⟩ := List.mem_map.mp
      (List.count_pos_iff.mp (show 0 < (c.pending.waiting.map (·.2)).count call by omega))
    have same := h.eq_of_requests waits.requested (h.waiting hmem).requested
    rwa [show id = other from congrArg Envelope.callbackId same]

/-! ### The end -/

theorem phase_settle (c : Connection σ) (response : Envelope) :
    (c.settle response).1.phase = c.phase := by
  cases hf : c.pending.find? response.callbackId with
  | none => rw [settle_of_none hf]
  | some call => rw [settle_of_some hf]

theorem isOver_settle (c : Connection σ) (response : Envelope) :
    (c.settle response).1.isOver = c.isOver := by
  rw [isOver, phase_settle]
  rfl

/-- When a connection ends, the calls that have no result fail. -/
theorem Accounts.closed_of_step (h : Accounts c t) {event : Event} (hc : c.isOver = false)
    (hd : (c.step event).1.isOver = true) {call : Call}
    (hcall : call ∈ Trace.queued (t ++ (c.step event).2)) (htwo : call.procedure.oneway = false)
    (hresolved : call.ticket ∉ (Trace.results t).map (·.1)) :
    (call.ticket, .error .connectionClosed) ∈ Trace.results (c.step event).2 := by
  have after := h.step event
  rcases step_cases c event with hmoves | ⟨payload, response, _, _, _, _, hstep⟩
  · obtain ⟨hqueue, hwaiting⟩ := after.ended hd
    have place := after.one_place hcall htwo
    simp only [Connection.calls, hqueue, hwaiting, List.filterMap_nil, List.map_nil,
      List.count_nil, Nat.zero_add] at place
    obtain ⟨⟨ticket, result⟩, hmem, rfl⟩ := List.mem_map.mp
      (List.count_pos_iff.mp (Nat.lt_of_lt_of_eq Nat.zero_lt_one place.symm))
    rw [Trace.results, Trace.view_append, List.mem_append] at hmem
    rcases hmem with hmem | hmem
    · exact absurd (List.mem_map_of_mem hmem) hresolved
    · have here := (hmoves.resolvedHere _ hmem).mono (List.subset_append_right t _)
      rw [← hmoves.fixed.peer] at here
      rwa [after.eq_closed_of_resolvedHere hcall htwo here] at hmem
  · rw [hstep, isOver_settle, hc] at hd
    cases hd

theorem isOver_step (h : c.isOver = true) (event : Event) : (c.step event).1.isOver = true := by
  have hserving : c.phase ≠ .serving := by
    intro hp
    simp [isOver, hp] at h
  cases event with
  | arrival arrival => simpa [step, hserving] using h
  | command => simpa [step, hserving] using h
  | call name args =>
      obtain ⟨queue, hframe⟩ := call_frame c name args
      simp only [step, hframe]
      exact h
  | close =>
      obtain ⟨queue, hframe⟩ := close_frame c
      simp only [step, hframe]
      exact h
  | peersGone =>
      simp only [step]
      split <;> exact h
  | farGone => exact h

/-! ### Every run -/

/-- What holds of the calls on a connection, given what has happened on it so far. -/
structure CallsKept (c : Connection σ) (t : List Effect) : Prop where
  /-- A two-way call that has been queued is still queued, waits for its response, or has its
  result; it is in one of these places, and there only once. -/
  onePlace : ∀ call ∈ Trace.queued t, call.procedure.oneway = false →
    c.calls.count call + (c.pending.waiting.map (·.2)).count call +
      ((Trace.results t).map (·.1)).count call.ticket = 1
  /-- Whatever happens next, a result stays what it is. -/
  kept : ∀ {ticket result}, (ticket, result) ∈ Trace.results t → ∀ events other,
    (ticket, other) ∈ Trace.results (t ++ (c.run events).2) ↔ other = result
  /-- What waits under an id is the call without a result whose own request carried the id. -/
  waits : ∀ {id call}, c.pending.find? id = some call ↔
    Waits t id call ∧ call.ticket ∉ (Trace.results t).map (·.1)
  /-- Nothing waits under 0, nor under an id that was never used or whose calls are resolved. -/
  unused : ∀ {id}, (id = .none ∨ ∀ entry ∈ Trace.requests t, entry.2.callbackId = id →
    entry.1 ∈ (Trace.results t).map (·.1)) → c.pending.find? id = none
  /-- A response settles the call that waits under its id, and does nothing else. -/
  answered : ∀ {payload response call}, c.phase = .serving →
    Envelope.ofBytes? payload = some response → response.kind = .response →
    c.pending.find? response.callbackId = some call →
    c.step (.arrival (.frame payload)) =
      ({ c with pending := { c.pending with
          waiting := c.pending.waiting.filter (·.1 != response.callbackId) } },
        [.received (.frame payload), .resolved call.ticket
          (match response.error with
            | some error => .error (.remote error)
            | none =>
              match conform call.procedure.rets response.data with
              | .ok values => .ok values
              | .error error => .error (.invalidData error))])
  /-- A response that no call waits for does nothing at all. -/
  ignored : ∀ {payload response}, c.phase = .serving →
    Envelope.ofBytes? payload = some response → response.kind = .response →
    c.pending.find? response.callbackId = none →
    c.step (.arrival (.frame payload)) = (c, [.received (.frame payload)])
  /-- However the connection ends, nothing stays in the queue or in the table, and the calls that
  had no result get one. -/
  ended : ∀ {event}, c.isOver = false → (c.step event).1.isOver = true →
    (c.step event).1.queue = [] ∧ (c.step event).1.pending.waiting = [] ∧
      ∀ call ∈ Trace.queued (t ++ (c.step event).2), call.procedure.oneway = false →
        call.ticket ∉ (Trace.results t).map (·.1) →
        (call.ticket, .error .connectionClosed) ∈ Trace.results (c.step event).2
  /-- The end is final, and calls that are made after it fail at once. -/
  final : c.isOver = true → ∀ event, (c.step event).1.isOver = true
  late : c.isOver = true → ∀ name args, c.step (.call name args) =
    ({ c with nextTicket := c.nextTicket + 1 },
      [.called c.nextTicket name args, .resolved c.nextTicket (.error
        (match c.peer.prepare name args with
          | .error error => error
          | .ok _ => .connectionClosed))])

theorem Accounts.callsKept (h : Accounts c t) : CallsKept c t where
  onePlace _ hcall htwo := h.one_place hcall htwo
  kept := by
    intro ticket result hmem events other
    have hlater := Trace.mem_view_append_left (u := (c.run events).2) hmem
    exact ⟨fun hother => (h.run events).eq_of_results hother hlater, fun same => same ▸ hlater⟩
  waits := h.find?_eq_some_iff
  unused := by
    intro id hid
    cases hf : c.pending.find? id with
    | none => rfl
    | some call =>
        rcases hid with rfl | hid
        · rw [h.pending.find?_none] at hf
          cases hf
        · obtain ⟨waits, hresolved⟩ := h.find?_eq_some_iff.mp hf
          exact absurd (hid _ waits.requested rfl) hresolved
  answered := by
    intro payload response call hphase hread hkind hf
    rw [Connection.step, if_pos hphase, receive_frame hread hkind, settle_of_some hf]
    rfl
  ignored := by
    intro payload response hphase hread hkind hf
    rw [Connection.step, if_pos hphase, receive_frame hread hkind, settle_of_none hf]
  ended := by
    intro event hc hd
    obtain ⟨hqueue, hwaiting⟩ := (h.step event).ended hd
    exact ⟨hqueue, hwaiting, fun call hcall htwo hr => h.closed_of_step hc hd hcall htwo hr⟩
  final := isOver_step
  late := by
    intro hover name args
    have haccepts : c.accepts = false := by simp [accepts, hover]
    cases hp : c.peer.prepare name args with
    | error error => exact call_of_error hp
    | ok prepared => exact call_of_not_accepts hp haccepts

/-- Whatever happens to a connection, and whatever the far end sends, no call is lost, none is
resolved twice, and none gets the answer to another. -/
theorem calls_are_kept (session : Session σ) (service : Service) (side : Side) (outlet : Outlet)
    (state : σ) (events : List Event) :
    CallsKept ((start session service side outlet state).run events).1
      ((start session service side outlet state).run events).2 :=
  ((Accounts.start session service side outlet state).run events).callsKept

end Connection

end DuplexRpc
