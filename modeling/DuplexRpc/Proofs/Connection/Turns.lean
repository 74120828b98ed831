import DuplexRpc.Proofs.Connection.Requests

/-!
# When it is a call's turn

Calls that have been queued are written when all that stands before them has been taken up.
A serving connection takes up one command at a time, and only a command that ends it is
without a request. So among enough commands every call has its turn, and calls that were
queued together are written together, or the first ones of them, in their order.
-/

namespace DuplexRpc

/-- The requests in a trace that belong to some of the calls. -/
def Trace.requestsOf (tickets : List Nat) (t : List Effect) : List (Nat × Envelope) :=
  (Trace.requests t).filter (·.1 ∈ tickets)

def Call.unnumbered (call : Call) : Nat × Envelope :=
  (call.ticket, .request call.procedure.name .none call.args)

namespace Connection

variable {σ : Type} {c d : Connection σ} {t u : List Effect}
variable {sent other : List Sent} {rest more : List Command}

/-- Some calls are next behind others. Of their requests those come first that are written first,
and with enough turns all of them are written. -/
structure Drains (d : Connection σ) (ahead : Nat) (calls : List Call) : Prop where
  order : ∀ later, Trace.requestsOf (calls.map (·.ticket)) (d.run later).2 <+:
    calls.map Call.unnumbered
  all : ∀ later, (d.run later).1.phase = .serving →
    ahead + calls.length ≤ later.count .command →
      Trace.requestsOf (calls.map (·.ticket)) (d.run later).2 = calls.map Call.unnumbered

/-! ### What is written in between -/

/-- What has been written since is what was left then and has been asked for since, up to what is
left now. -/
theorem Sending.since (h : Sending c t sent rest) (k : Sending d (t ++ u) other more) :
    ∃ written ⊆ other, Trace.requests u = written.map Sent.entry ∧
      rest ++ Trace.commands u = written.map (.call ·.call) ++ more := by
  have requests : sent.map Sent.entry ++ Trace.requests u = other.map Sent.entry := by
    rw [← h.requests, ← Trace.requests_append, k.requests]
  have commands : sent.map (.call ·.call) ++ (rest ++ Trace.commands u) =
      other.map (.call ·.call) ++ more := by
    rw [← List.append_assoc, ← h.commands, ← Trace.commands_append, k.commands]
  have length := congrArg List.length requests
  simp only [List.length_append, List.length_map] at length
  -- the earlier ones are as many as before
  obtain ⟨earlier, written, rfl, same⟩ : ∃ earlier written, other = earlier ++ written ∧
      earlier.length = sent.length :=
    ⟨other.take sent.length, other.drop sent.length, (List.take_append_drop _ _).symm,
      List.length_take_of_le (by omega)⟩
  rw [List.map_append] at requests commands
  rw [List.append_assoc] at commands
  refine ⟨written, List.subset_append_right _ _, ?_, ?_⟩
  · exact List.append_inj_right requests (by rw [List.length_map, List.length_map, same])
  · exact List.append_inj_right commands (by rw [List.length_map, List.length_map, same])

/-! ### Turns -/

/-- A connection that serves has served all the time. -/
theorem serving_of_run {later : List Event} (goes_on : (c.run later).1.phase = .serving) :
    c.phase = .serving := by
  by_contra stopped
  rw [(stops_run stopped later).1] at goes_on
  exact stopped goes_on

theorem serving_of_step {event : Event} (goes_on : (c.step event).1.phase = .serving) :
    c.phase = .serving :=
  serving_of_run (show (c.run [event]).1.phase = .serving from goes_on)

/-- Whatever is taken up is written, or else the connection does not serve any more. -/
theorem requests_of_command (goes_on : (c.step .command).1.phase = .serving) (left : c.queue ≠ []) :
    Trace.requests (c.step .command).2 ≠ [] := by
  have serving := serving_of_step goes_on
  rw [step, if_pos serving] at goes_on ⊢
  obtain ⟨behind, queue, taken⟩ | ⟨call, id, d, _, taken⟩ | ⟨_, taken⟩ := takeCommand_cases left
  · rw [taken] at goes_on
    cases goes_on
  · rw [taken] at goes_on ⊢
    simp only [write] at goes_on ⊢
    split at goes_on
    next => simp
    next => cases goes_on
  · rw [taken] at goes_on
    cases goes_on

/-- A connection that goes on has written as many requests as it has taken turns, or at least what
was queued at first. -/
theorem Sending.turns (h : Sending c t sent rest) (accounts : Accounts c t) {later : List Event}
    (goes_on : (c.run later).1.phase = .serving) :
    min c.queue.length (later.count .command) ≤ (Trace.requests (c.run later).2).length := by
  induction later generalizing c t sent rest with
  | nil => simp
  | cons event later ih =>
      rw [run_cons] at goes_on ⊢
      have next_goes_on : (c.step event).1.phase = .serving := serving_of_run goes_on
      have serving := serving_of_step next_goes_on
      obtain ⟨_, _, k⟩ := h.step accounts.pending event
      have turns := ih k (accounts.step event) goes_on
      obtain ⟨written, _, requests, commands⟩ := h.since k
      rw [h.queue (not_isOver_of_serving serving),
        k.queue (not_isOver_of_serving next_goes_on)] at commands
      have taken : c.queue.length ≤ written.length + (c.step event).1.queue.length := by
        have length := congrArg List.length commands
        simp only [List.length_append, List.length_map] at length
        omega
      have turn : event = .command → c.queue ≠ [] → 0 < written.length := by
        rintro rfl left
        have some_written := requests_of_command next_goes_on left
        rw [requests] at some_written
        simpa [List.length_pos_iff] using some_written
      rw [Trace.requests_append, List.length_append, requests, List.length_map]
      by_cases command : event = .command
      · subst command
        rw [List.count_cons_self]
        by_cases left : c.queue = []
        · simp [left]
        · have := turn rfl left
          omega
      · rw [List.count_cons_of_ne command]
        omega

/-! ### Calls that are queued together -/

theorem queued_eq_filterMap (t : List Effect) :
    Trace.queued t = (Trace.commands t).filterMap Command.call? := by
  rw [Trace.queued, Trace.commands, Trace.view, Trace.view, List.filterMap_filterMap]
  refine List.filterMap_congr fun effect _ => ?_
  cases effect with
  | queued command => cases command <;> rfl
  | _ => rfl

/-- Calls among others with different tickets are found by their tickets. -/
theorem filter_ticket {before own behind : List Call}
    (distinct : ((before ++ own ++ behind).map (·.ticket)).Nodup) :
    (before ++ own ++ behind).filter (·.ticket ∈ own.map (·.ticket)) = own := by
  rw [List.map_append, List.map_append] at distinct
  obtain ⟨first, _, apart_behind⟩ := List.nodup_append.mp distinct
  obtain ⟨_, _, apart_before⟩ := List.nodup_append.mp first
  have before_none : before.filter (·.ticket ∈ own.map (·.ticket)) = [] := by
    refine List.filter_eq_nil_iff.mpr fun call hmem found => ?_
    exact apart_before _ (List.mem_map_of_mem hmem) _ (of_decide_eq_true found) rfl
  have behind_none : behind.filter (·.ticket ∈ own.map (·.ticket)) = [] := by
    refine List.filter_eq_nil_iff.mpr fun call hmem found => ?_
    exact apart_behind _ (List.mem_append_right _ (of_decide_eq_true found)) _
      (List.mem_map_of_mem hmem) rfl
  have own_all : own.filter (·.ticket ∈ own.map (·.ticket)) = own :=
    List.filter_eq_self.mpr fun call hmem => decide_eq_true (List.mem_map_of_mem hmem)
  rw [List.filter_append, List.filter_append, before_none, own_all, behind_none, List.nil_append,
    List.append_nil]

/-- The beginning of such a list has the first of the calls, and all of them if it is long
enough. -/
theorem filter_ticket_of_prefix {written before own behind : List Call}
    (first : written <+: before ++ own ++ behind)
    (distinct : ((before ++ own ++ behind).map (·.ticket)).Nodup) :
    written.filter (·.ticket ∈ own.map (·.ticket)) <+: own ∧
      (before.length + own.length ≤ written.length →
        written.filter (·.ticket ∈ own.map (·.ticket)) = own) := by
  have filtered := first.filter fun call => decide (call.ticket ∈ own.map (·.ticket))
  rw [filter_ticket distinct] at filtered
  refine ⟨filtered, fun long => filtered.eq_of_length_le ?_⟩
  have reached : before ++ own <+: written :=
    List.prefix_of_prefix_length_le (List.prefix_append _ behind) first (by simpa using long)
  have distinct_so_far : ((before ++ own ++ []).map Call.ticket).Nodup := by
    rw [List.append_nil]
    exact distinct.sublist ((List.sublist_append_left _ behind).map _)
  have all := reached.filter fun call => decide (call.ticket ∈ own.map (·.ticket))
  rw [← List.append_nil (before ++ own), filter_ticket distinct_so_far] at all
  exact all.length_le

/-- A run writes the calls that are queued at first and then those that are queued meanwhile, as
far as it comes. -/
theorem Sending.writes (h : Sending d t sent rest) (accounts : Accounts d t)
    (running : d.isOver = false) (later : List Event) :
    ∃ (written : List Sent) (behind : List Call),
      Trace.requests (d.run later).2 = written.map Sent.entry ∧
        (∀ x ∈ written, x.id = .none ↔ x.call.procedure.oneway = true) ∧
          written.map (·.call) <+: d.calls ++ behind ∧
            ((d.calls ++ behind).map (·.ticket)).Nodup := by
  obtain ⟨_, more, k⟩ := h.run accounts later
  obtain ⟨written, earlier, requests, commands⟩ := h.since k
  rw [h.queue running] at commands
  have calls : d.calls ++ (Trace.commands (d.run later).2).filterMap Command.call? =
      written.map (·.call) ++ more.filterMap Command.call? := by
    have same := congrArg (List.filterMap Command.call?) commands
    rwa [List.filterMap_append, List.filterMap_append, List.filterMap_map,
      show Command.call? ∘ (fun x : Sent => Command.call x.call) = some ∘ Sent.call from rfl,
      List.filterMap_eq_map] at same
  refine ⟨written, _, requests, fun x hx => k.oneway x (earlier hx), ⟨_, calls.symm⟩, ?_⟩
  have distinct := (accounts.run later).ascending.imp Nat.ne_of_lt
  rw [queued_eq_filterMap, Trace.commands_append, h.commands, h.queue running, List.append_assoc,
    List.filterMap_append, List.map_append, List.filterMap_append] at distinct
  exact (List.nodup_append.mp distinct).2.1

/-- Oneway calls that are last in the queue have their turns when everything before them has. -/
theorem Sending.drains (h : Sending d t sent rest) (accounts : Accounts d t)
    (running : d.isOver = false) {ahead : List Command} {calls : List Call}
    (queue : d.queue = ahead ++ calls.map .call)
    (oneway : ∀ call ∈ calls, call.procedure.oneway = true) : Drains d ahead.length calls := by
  have queued : d.calls = ahead.filterMap Command.call? ++ calls := by
    rw [Connection.calls, queue, List.filterMap_append, List.filterMap_map,
      show Command.call? ∘ Command.call = some from rfl, List.filterMap_some]
  have drained : ∀ later, ∃ own, own <+: calls ∧
      Trace.requestsOf (calls.map (·.ticket)) (d.run later).2 = own.map Call.unnumbered ∧
        (ahead.length + calls.length ≤ (Trace.requests (d.run later).2).length → own = calls) := by
    intro later
    obtain ⟨written, behind, requests, numbered, first, distinct⟩ := h.writes accounts running later
    rw [queued] at first distinct
    obtain ⟨some_first, all⟩ := filter_ticket_of_prefix first distinct
    refine ⟨_, some_first, ?_, fun long => all ?_⟩
    · rw [Trace.requestsOf, requests, List.filter_map, List.filter_map, List.map_map]
      rw [List.filter_map] at some_first
      refine List.map_congr_left fun x found => ?_
      have unnumbered := (numbered x (List.mem_of_mem_filter found)).mpr
        (oneway _ (some_first.subset (List.mem_map_of_mem found)))
      rw [Sent.entry, Sent.request, unnumbered]
      rfl
    · have fewer := List.length_filterMap_le Command.call? ahead
      rw [requests, List.length_map] at long
      rw [List.length_map]
      omega
  constructor
  case order =>
    intro later
    obtain ⟨own, first, requests, _⟩ := drained later
    rw [requests]
    exact first.map _
  case all =>
    intro later goes_on turns
    obtain ⟨own, _, requests, all⟩ := drained later
    have taken := h.turns accounts goes_on
    have length := congrArg List.length queue
    rw [List.length_append, List.length_map] at length
    rw [requests, all (by omega)]

end Connection

end DuplexRpc
