import DuplexRpc.Proofs.Connection.Accounts
import Mathlib.Data.List.Forall2

/-!
# Calls that fail their checks

A call that fails its checks leaves nothing behind but its own result. Two ends are compared
here that differ in nothing but such calls: the second one is spared some of them, whether
handlers make them or peers from outside. Everything else happens on both ends alike, with
the same frames under the same ids and the same results.

Only tickets are counted differently. They belong to calls, so those of the calls that both
ends make correspond to each other in their order: ticket `n` of the end that is spared is
the ticket at place `n` of a list that goes with the two runs.
-/

namespace DuplexRpc

/-- The second list is the first one without some of its elements that are of a kind. -/
inductive Spares {α : Type} (kind : α → Prop) : List α → List α → Prop
  | nil : Spares kind [] []
  | keep (x : α) {l m : List α} (h : Spares kind l m) : Spares kind (x :: l) (x :: m)
  | drop {x : α} {l m : List α} (hx : kind x) (h : Spares kind l m) : Spares kind (x :: l) m

def Peer.Refuses (peer : Peer) (name : String) (args : Values) : Prop :=
  ∃ error, peer.prepare name args = .error error

def Request.Fails (peer : Peer) : Request → Prop
  | .call name args => peer.Refuses name args
  | .close => False

def Event.Fails (peer : Peer) : Event → Prop
  | .call name args => peer.Refuses name args
  | _ => False

/-- The handlers of the second session do what those of the first one do, but they are spared some
of the calls that fail. -/
def Session.Spares {σ : Type} (peer : Peer) (session other : Session σ) : Prop :=
  ∀ state procedure args,
    (other.handle peer state procedure args).state =
        (session.handle peer state procedure args).state ∧
      (other.handle peer state procedure args).outcome =
        (session.handle peer state procedure args).outcome ∧
      DuplexRpc.Spares (Request.Fails peer) (session.handle peer state procedure args).requests
        (other.handle peer state procedure args).requests

/-! ### Tickets -/

/-- The same call, with the ticket that the place in a list gives it. -/
structure Call.Renumbered (kept : List Nat) (call other : Call) : Prop where
  ticket : kept[other.ticket]? = some call.ticket
  procedure : other.procedure = call.procedure
  args : other.args = call.args

inductive Command.Renumbered (kept : List Nat) : Command → Command → Prop
  | call {call other : Call} (h : call.Renumbered kept other) :
      Renumbered kept (.call call) (.call other)
  | close : Renumbered kept .close .close

/-- Whether the effect is one of serving or of the end, and not one of a call. -/
def Effect.isTicketless : Effect → Bool
  | called .. | queued _ | requested .. | resolved .. => false
  | _ => true

inductive Effect.Renumbered (kept : List Nat) : Effect → Effect → Prop
  | called {m n : Nat} (h : kept[n]? = some m) (name : String) (args : Values) :
      Renumbered kept (.called m name args) (.called n name args)
  | queued {command other : Command} (h : command.Renumbered kept other) :
      Renumbered kept (.queued command) (.queued other)
  | requested {m n : Nat} (h : kept[n]? = some m) (request : Envelope) :
      Renumbered kept (.requested m request) (.requested n request)
  | resolved {m n : Nat} (h : kept[n]? = some m) (result : Except CallError Values) :
      Renumbered kept (.resolved m result) (.resolved n result)
  | same {effect : Effect} (h : effect.isTicketless = true) : Renumbered kept effect effect

/-- The second trace is the first one without some calls that fail, and with the tickets counted
anew. -/
inductive Trace.Spared (peer : Peer) (kept : List Nat) : List Effect → List Effect → Prop
  | nil : Spared peer kept [] []
  | keep {effect other : Effect} {t u : List Effect} (he : effect.Renumbered kept other)
      (h : Spared peer kept t u) : Spared peer kept (effect :: t) (other :: u)
  | drop {ticket : Nat} {name : String} {args : Values} {error : CallError} {t u : List Effect}
      (refused : peer.prepare name args = .error error) (h : Spared peer kept t u) :
      Spared peer kept (.called ticket name args :: .resolved ticket (.error error) :: t) u

section

variable {kept : List Nat}

theorem getElem?_kept {m n : Nat} (h : kept[n]? = some m) (more : List Nat) :
    (kept ++ more)[n]? = some m := by
  obtain ⟨inside, _⟩ := List.getElem?_eq_some_iff.mp h
  rwa [List.getElem?_append_left inside]

theorem Call.Renumbered.append {call other : Call} (h : call.Renumbered kept other)
    (more : List Nat) : call.Renumbered (kept ++ more) other :=
  ⟨getElem?_kept h.ticket more, h.procedure, h.args⟩

theorem Command.Renumbered.append {command other : Command} (h : command.Renumbered kept other)
    (more : List Nat) : command.Renumbered (kept ++ more) other := by
  cases h with
  | call h => exact .call (h.append more)
  | close => exact .close

theorem Effect.Renumbered.append {effect other : Effect} (h : effect.Renumbered kept other)
    (more : List Nat) : effect.Renumbered (kept ++ more) other := by
  cases h with
  | called h name args => exact .called (getElem?_kept h more) name args
  | queued h => exact .queued (h.append more)
  | requested h request => exact .requested (getElem?_kept h more) request
  | resolved h result => exact .resolved (getElem?_kept h more) result
  | same h => exact .same h

/-- The same payloads are written. -/
theorem Effect.Renumbered.payload? {effect other : Effect} (h : effect.Renumbered kept other) :
    other.payload? = effect.payload? := by
  cases h <;> rfl

namespace Trace.Spared

variable {peer : Peer} {t u : List Effect}

theorem append_kept (h : Spared peer kept t u) (more : List Nat) :
    Spared peer (kept ++ more) t u := by
  induction h with
  | nil => exact .nil
  | keep he _ ih => exact .keep (he.append more) ih
  | drop refused _ ih => exact .drop refused ih

theorem append (h : Spared peer kept t u) {t' u' : List Effect} (k : Spared peer kept t' u') :
    Spared peer kept (t ++ t') (u ++ u') := by
  induction h with
  | nil => exact k
  | keep he _ ih => exact .keep he ih
  | drop refused _ ih => exact .drop refused ih

theorem one {effect other : Effect} (h : effect.Renumbered kept other) :
    Spared peer kept [effect] [other] :=
  .keep h .nil

/-- To be spared calls that fail changes nothing that is written. -/
theorem payloads (h : Spared peer kept t u) :
    u.filterMap Effect.payload? = t.filterMap Effect.payload? := by
  induction h with
  | nil => rfl
  | keep he _ ih => rw [List.filterMap_cons, List.filterMap_cons, he.payload?, ih]
  | drop _ _ ih => exact ih

end Trace.Spared

end

namespace Connection

variable {σ : Type} {peer : Peer} {kept : List Nat} {c d : Connection σ}

/-- Two connections that differ only in calls that have failed: their tickets are counted
differently, and nothing else is different. -/
structure Alike (peer : Peer) (kept : List Nat) (c d : Connection σ) : Prop where
  caller : c.peer = peer
  session : c.session.Spares peer d.session
  service : d.service = c.service
  side : d.side = c.side
  outlet : d.outlet = c.outlet
  state : d.state = c.state
  hasPeers : d.hasPeers = c.hasPeers
  phase : d.phase = c.phase
  queue : List.Forall₂ (Command.Renumbered kept) c.queue d.queue
  nextId : d.pending.nextId = c.pending.nextId
  waiting : List.Forall₂ (fun entry other => other.1 = entry.1 ∧ entry.2.Renumbered kept other.2)
    c.pending.waiting d.pending.waiting
  length : kept.length = d.nextTicket
  ascending : (kept ++ [c.nextTicket]).Pairwise (· < ·)

/-- What two connections do that goes on to be alike. -/
def Alongside (peer : Peer) (kept : List Nat) (first second : Connection σ × List Effect) : Prop :=
  ∃ more, Alike peer (kept ++ more) first.1 second.1 ∧
    Trace.Spared peer (kept ++ more) first.2 second.2

namespace Alongside

variable {first second later last : Connection σ × List Effect}

theorem same (h : Alike peer kept c d) {t u : List Effect} (trace : Trace.Spared peer kept t u) :
    Alongside peer kept (c, t) (d, u) := by
  refine ⟨[], ?_, ?_⟩
  · rwa [List.append_nil]
  · rwa [List.append_nil]

/-- One thing after the other. -/
theorem append (h : Alongside peer kept first second)
    (k : ∀ {kept}, Alike peer kept first.1 second.1 → Alongside peer kept later last) :
    Alongside peer kept (later.1, first.2 ++ later.2) (last.1, second.2 ++ last.2) := by
  obtain ⟨more, alike, trace⟩ := h
  obtain ⟨further, alike_later, trace_later⟩ := k alike
  rw [List.append_assoc] at alike_later trace_later
  refine ⟨more ++ further, alike_later, ?_⟩
  have widened := trace.append_kept further
  rw [List.append_assoc] at widened
  exact widened.append trace_later

end Alongside

namespace Alike

/-- Two connections that have just begun are alike, however their handlers differ. -/
theorem start {session other : Session σ} (service : Service) (side : Side) (outlet : Outlet)
    (state : σ) (spared : session.Spares { service, side := side.opposite } other) :
    Alike { service, side := side.opposite } []
      (Connection.start session service side outlet state)
      (Connection.start other service side outlet state) where
  caller := rfl
  session := spared
  service := rfl
  side := rfl
  outlet := rfl
  state := rfl
  hasPeers := rfl
  phase := rfl
  queue := .nil
  nextId := rfl
  waiting := .nil
  length := rfl
  ascending := List.pairwise_singleton _ _

variable (h : Alike peer kept c d)
include h

theorem peer_eq : d.peer = peer := by
  rw [← h.caller, Connection.peer, h.service, h.side]
  rfl

theorem accepts_eq : d.accepts = c.accepts := by
  rw [accepts, accepts, isOver, isOver, h.phase, h.hasPeers]

theorem bound {n m : Nat} (hn : kept[n]? = some m) : m < c.nextTicket := by
  have ascending := List.pairwise_append.mp h.ascending
  exact ascending.2.2 m (List.mem_of_getElem? hn) _ List.mem_cons_self

/-! ### Calls -/

/-- A call that both make gets its ticket on either of them. -/
theorem next : (kept ++ [c.nextTicket])[d.nextTicket]? = some c.nextTicket := by
  rw [← h.length, List.getElem?_append_right (Nat.le_refl _), Nat.sub_self]
  rfl

theorem ticketed {queue other : List Command}
    (queued : List.Forall₂ (Command.Renumbered (kept ++ [c.nextTicket])) queue other) :
    Alike peer (kept ++ [c.nextTicket]) { c with nextTicket := c.nextTicket + 1, queue }
      { d with nextTicket := d.nextTicket + 1, queue := other } where
  caller := h.caller
  session := h.session
  service := h.service
  side := h.side
  outlet := h.outlet
  state := h.state
  hasPeers := h.hasPeers
  phase := h.phase
  queue := queued
  nextId := h.nextId
  waiting := h.waiting.imp fun _ _ same => ⟨same.1, same.2.append _⟩
  length := by rw [List.length_append, h.length]; rfl
  ascending := by
    refine List.pairwise_append.mpr ⟨h.ascending, List.pairwise_singleton _ _, ?_⟩
    intro m hm n hn
    obtain rfl := List.mem_singleton.mp hn
    obtain hm | hm := List.mem_append.mp hm
    · obtain ⟨place, hplace⟩ := List.getElem?_of_mem hm
      exact Nat.lt_succ_of_lt (h.bound hplace)
    · obtain rfl := List.mem_singleton.mp hm
      exact Nat.lt_succ_self _

/-- A call that only the first one makes, and that fails, is not noticed. -/
theorem refused {name : String} {args : Values} (fails : peer.Refuses name args) :
    Alongside peer kept (c.call name args) (d, []) := by
  obtain ⟨error, prepared⟩ := fails
  have checked : c.peer.prepare name args = .error error := by rwa [h.caller]
  rw [call_of_error checked]
  suffices alike : Alike peer kept { c with nextTicket := c.nextTicket + 1 } d from
    .same alike (.drop prepared .nil)
  refine { h with ascending := ?_ }
  obtain ⟨ascending, _, _⟩ := List.pairwise_append.mp h.ascending
  refine List.pairwise_append.mpr ⟨ascending, List.pairwise_singleton _ _, fun m hm n hn => ?_⟩
  obtain rfl := List.mem_singleton.mp hn
  obtain ⟨place, hplace⟩ := List.getElem?_of_mem hm
  exact Nat.lt_succ_of_lt (h.bound hplace)

theorem queue_append (tickets : List Nat) {command other : Command}
    (h' : command.Renumbered (kept ++ tickets) other) :
    List.Forall₂ (Command.Renumbered (kept ++ tickets)) (c.queue ++ [command])
      (d.queue ++ [other]) :=
  List.rel_append (h.queue.imp fun _ _ same => same.append tickets) (.cons h' .nil)

theorem call (name : String) (args : Values) :
    Alongside peer kept (c.call name args) (d.call name args) := by
  have ticket := h.next
  cases prepared : peer.prepare name args with
  | error error =>
      have first : c.peer.prepare name args = .error error := by rwa [h.caller]
      have second : d.peer.prepare name args = .error error := by rwa [h.peer_eq]
      rw [call_of_error first, call_of_error second]
      refine ⟨[c.nextTicket], h.ticketed (h.queue.imp fun _ _ same => same.append _), ?_⟩
      exact .keep (.called ticket name args) (.one (.resolved ticket _))
  | ok checked =>
      obtain ⟨procedure, checked⟩ := checked
      have first : c.peer.prepare name args = .ok (procedure, checked) := by rwa [h.caller]
      have second : d.peer.prepare name args = .ok (procedure, checked) := by rwa [h.peer_eq]
      cases accepted : c.accepts with
      | false =>
          have refused : d.accepts = false := h.accepts_eq.trans accepted
          rw [call_of_not_accepts first accepted, call_of_not_accepts second refused]
          refine ⟨[c.nextTicket], h.ticketed (h.queue.imp fun _ _ same => same.append _), ?_⟩
          exact .keep (.called ticket name args) (.one (.resolved ticket _))
      | true =>
          have taken : d.accepts = true := h.accepts_eq.trans accepted
          rw [call_of_accepts first accepted, call_of_accepts second taken]
          have same : Command.Renumbered (kept ++ [c.nextTicket])
              (.call ⟨c.nextTicket, procedure, checked⟩)
              (.call ⟨d.nextTicket, procedure, checked⟩) := .call ⟨ticket, rfl, rfl⟩
          refine ⟨[c.nextTicket], h.ticketed (h.queue_append _ same), ?_⟩
          refine .keep (.called ticket name args) (.keep (.queued same) ?_)
          cases procedure.oneway with
          | true => exact .one (.resolved ticket _)
          | false => exact .nil

theorem close : Alongside peer kept c.close d.close := by
  unfold Connection.close
  rw [h.accepts_eq]
  split
  next =>
    have queued := h.queue_append [] .close
    rw [List.append_nil] at queued
    have alike : Alike peer kept { c with queue := c.queue ++ [.close] }
        { d with queue := d.queue ++ [.close] } := { h with queue := queued }
    exact .same alike (.one (.queued .close))
  next => exact .same h .nil

omit h in
/-- What handlers ask for. -/
theorem submit {requests fewer : List Request} (spared : Spares (Request.Fails peer) requests fewer)
    (h : Alike peer kept c d) : Alongside peer kept (c.submit requests) (d.submit fewer) := by
  induction spared generalizing kept c d with
  | nil => exact .same h .nil
  | keep request _ ih =>
      have first : Alongside peer kept (c.submitOne request) (d.submitOne request) := by
        cases request with
        | call name args => exact h.call name args
        | close => exact h.close
      exact first.append ih
  | @drop request _ _ fails _ ih =>
      cases request with
      | call name args => exact (h.refused fails).append ih
      | close => exact fails.elim

/-! ### The end of a connection -/

theorem unresolved :
    List.Forall₂ (fun m n => kept[n]? = some m) c.unresolved d.unresolved := by
  refine List.rel_append ?_ ?_
  · refine List.forall₂_reverse_iff.mpr ?_
    rw [List.forall₂_map_left_iff, List.forall₂_map_right_iff]
    exact h.waiting.imp fun _ _ same => same.2.ticket
  · have queue := h.queue
    generalize c.queue = commands at queue
    generalize d.queue = others at queue
    induction queue with
    | nil => exact .nil
    | @cons command other _ _ same _ ih =>
        cases same with
        | close => exact ih
        | @call call other same =>
            have oneway := congrArg Procedure.oneway same.procedure
            cases ho : call.procedure.oneway with
            | true => simpa [ho, oneway] using ih
            | false => simpa [ho, oneway] using ⟨same.ticket, ih⟩

theorem finish (error : Option ProtocolError) :
    Alongside peer kept (c.finish error) (d.finish error) := by
  have alike : Alike peer kept (c.finish error).1 (d.finish error).1 :=
    { h with phase := rfl, queue := .nil, waiting := .nil }
  refine .same alike ?_
  refine .keep (.same rfl) ?_
  have unresolved := h.unresolved
  generalize c.unresolved = tickets at unresolved
  generalize d.unresolved = others at unresolved
  induction unresolved with
  | nil => exact .nil
  | cons same _ ih => exact .keep (.resolved same _) ih

theorem fail (error : ProtocolError) : Alongside peer kept (c.fail error) (d.fail error) :=
  h.finish (some error)

/-! ### Commands -/

/-- The same ids are free. -/
theorem find? (id : CallbackId) :
    (c.pending.find? id = none ∧ d.pending.find? id = none) ∨
      ∃ call other, c.pending.find? id = some call ∧ d.pending.find? id = some other ∧
        call.Renumbered kept other := by
  have waiting := h.waiting
  unfold PendingCalls.find?
  generalize c.pending.waiting = entries at waiting
  generalize d.pending.waiting = others at waiting
  induction waiting with
  | nil => exact .inl ⟨rfl, rfl⟩
  | @cons entry other _ _ same _ ih =>
      obtain ⟨_, call⟩ := entry
      obtain ⟨own, renumbered⟩ := other
      obtain ⟨rfl, same⟩ := same
      by_cases here : id = own
      · subst here
        exact .inr ⟨call, renumbered, List.lookup_cons_self, List.lookup_cons_self, same⟩
      · have absent : (id == own) = false := beq_eq_false_iff_ne.mpr here
        simpa only [List.lookup_cons, absent] using ih

theorem register? {call other : Call} (same : call.Renumbered kept other) :
    (c.pending.register? call = none ∧ d.pending.register? other = none) ∨
      ∃ id pending spared, c.pending.register? call = some (id, pending) ∧
        d.pending.register? other = some (id, spared) ∧ spared.nextId = pending.nextId ∧
        List.Forall₂ (fun entry other => other.1 = entry.1 ∧ entry.2.Renumbered kept other.2)
          pending.waiting spared.waiting := by
  have free : ∀ id, d.pending.isFree id = c.pending.isFree id := by
    intro id
    rw [PendingCalls.isFree, PendingCalls.isFree]
    obtain ⟨first, second⟩ | ⟨_, _, first, second, _⟩ := h.find? id
    · rw [first, second]
    · rw [first, second]
      rfl
  have tried : ∀ tries start, d.pending.freeId? start tries = c.pending.freeId? start tries := by
    intro tries
    induction tries with
    | zero => exact fun _ => rfl
    | succ tries ih =>
        intro start
        rw [PendingCalls.freeId?, PendingCalls.freeId?, free, ih]
  have length := h.waiting.length_eq
  rw [PendingCalls.register?, PendingCalls.register?, h.nextId, ← length, tried]
  cases c.pending.freeId? c.pending.nextId (c.pending.waiting.length + 1) with
  | none => exact .inl ⟨rfl, rfl⟩
  | some id => exact .inr ⟨id, _, _, rfl, rfl, rfl, .cons ⟨rfl, same⟩ h.waiting⟩

theorem write {call other : Call} (same : call.Renumbered kept other) (id : CallbackId) :
    Alongside peer kept (c.write call id) (d.write other id) := by
  simp only [Connection.write, same.procedure, same.args, h.outlet]
  split
  next => exact .same h (.one (.requested same.ticket _))
  next fault _ => exact h.fail _

theorem takeCommand : Alongside peer kept c.takeCommand d.takeCommand := by
  have queue := h.queue
  unfold Connection.takeCommand
  generalize hc : c.queue = commands at queue
  generalize hd : d.queue = others at queue
  cases queue with
  | nil => exact .same h .nil
  | @cons command other rest fewer same behind =>
      have taken : Alike peer kept { c with queue := rest } { d with queue := fewer } :=
        { h with queue := behind }
      cases same with
      | close => exact taken.finish none
      | @call call other same =>
          simp only [send, same.procedure]
          cases call.procedure.oneway with
          | true => exact taken.write same .none
          | false =>
              obtain ⟨first, second⟩ | ⟨id, pending, spared, first, second, nextId, waiting⟩ :=
                taken.register? same
              · simp only [first, second]
                have stuck : Alike peer kept { c with queue := .call call :: rest, phase := .stuck }
                    { d with queue := .call other :: fewer, phase := .stuck } :=
                  { h with queue := .cons (.call same) behind, phase := rfl }
                exact .same stuck .nil
              · simp only [first, second]
                have registered : Alike peer kept { c with queue := rest, pending }
                    { d with queue := fewer, pending := spared } :=
                  { taken with nextId, waiting }
                exact registered.write same id

/-! ### Arrivals -/

theorem settle (response : Envelope) :
    Alongside peer kept (c.settle response) (d.settle response) := by
  obtain ⟨first, second⟩ | ⟨call, other, first, second, same⟩ := h.find? response.callbackId
  · rw [settle_of_none first, settle_of_none second]
    exact .same h .nil
  · rw [settle_of_some first, settle_of_some second, same.procedure]
    suffices left : List.Forall₂
        (fun entry other => other.1 = entry.1 ∧ entry.2.Renumbered kept other.2)
        (c.pending.waiting.filter (·.1 != response.callbackId))
        (d.pending.waiting.filter (·.1 != response.callbackId)) by
      have alike : Alike peer kept
          { c with pending := { c.pending with
              waiting := c.pending.waiting.filter (·.1 != response.callbackId) } }
          { d with pending := { d.pending with
              waiting := d.pending.waiting.filter (·.1 != response.callbackId) } } :=
        { h with waiting := left }
      exact .same alike (.one (.resolved same.ticket _))
    refine List.rel_filter (fun entry other same => ?_) h.waiting
    show (entry.1 != response.callbackId) = true ↔ (other.1 != response.callbackId) = true
    rw [same.1]

theorem respond (response : Envelope) :
    Alongside peer kept (c.respond response) (d.respond response) := by
  simp only [Connection.respond, h.outlet]
  split
  next => exact .same h (.one (.same rfl))
  next fault _ => exact h.fail _

/-- The handlers end in the same way, so their responses are the same. -/
theorem runHandler (id : CallbackId) (procedure : Procedure) (args : Values) :
    Alongside peer kept (c.runHandler id procedure args) (d.runHandler id procedure args) := by
  obtain ⟨run, first⟩ : ∃ run, c.session.handle c.peer c.state procedure args = run := ⟨_, rfl⟩
  obtain ⟨spared, second⟩ : ∃ run, d.session.handle d.peer d.state procedure args = run :=
    ⟨_, rfl⟩
  -- both handlers are run with the same peer and in the same state
  have same := h.session c.state procedure args
  rw [← h.state, ← h.peer_eq, second, h.peer_eq, h.state, ← h.caller, first, h.caller] at same
  obtain ⟨state, outcome, requests⟩ := same
  have begun : Alike peer kept { c with state := run.state } { d with state := spared.state } :=
    { h with state := state }
  obtain ⟨more, alike, trace⟩ := submit requests begun
  have handled : Alongside peer kept
      ((c.ran run).1, .handled procedure.name args run.outcome :: (c.ran run).2)
      ((d.ran spared).1, .handled procedure.name args spared.outcome :: (d.ran spared).2) := by
    rw [outcome]
    exact ⟨more, alike, .keep (.same rfl) trace⟩
  cases responds : responseTo id procedure run.outcome with
  | none =>
      have unanswered : responseTo id procedure spared.outcome = none := by rwa [outcome]
      rw [runHandler_of_stuck first responds, runHandler_of_stuck second unanswered]
      obtain ⟨more, alike, trace⟩ := handled
      exact ⟨more, { alike with phase := rfl }, trace⟩
  | some response =>
      have answered : responseTo id procedure spared.outcome = some response := by rwa [outcome]
      cases oneway : procedure.oneway with
      | true =>
          rw [runHandler_of_oneway first responds oneway,
            runHandler_of_oneway second answered oneway]
          exact handled
      | false =>
          rw [runHandler_of_twoWay first responds oneway,
            runHandler_of_twoWay second answered oneway]
          exact handled.append fun alike => alike.respond response

theorem serve (request : Envelope) :
    Alongside peer kept (c.serve request) (d.serve request) := by
  simp only [Connection.serve, h.service, h.side]
  split
  next => exact h.fail _
  next procedure _ =>
    split
    next error _ => exact h.fail _
    next args _ => exact h.runHandler _ procedure args

theorem receive (arrival : Arrival) :
    Alongside peer kept (c.receive arrival) (d.receive arrival) := by
  have acted : Alongside peer kept (c.arrive arrival) (d.arrive arrival) := by
    cases arrival with
    | closed => exact h.finish none
    | fault fault => exact h.fail _
    | frame payload =>
        simp only [arrive]
        cases Envelope.ofBytes? payload with
        | none => exact h.fail _
        | some envelope =>
            simp only
            split
            next => exact h.serve envelope
            next => exact h.settle envelope
  obtain ⟨more, alike, trace⟩ := acted
  exact ⟨more, alike, .keep (.same rfl) trace⟩

/-! ### Steps and runs -/

theorem step (event : Event) : Alongside peer kept (c.step event) (d.step event) := by
  cases event with
  | call name args => exact h.call name args
  | close => exact h.close
  | farGone =>
      have alike : Alike peer kept (c.step .farGone).1 (d.step .farGone).1 :=
        { h with outlet := by simp only [Connection.step, h.outlet] }
      exact .same alike .nil
  | peersGone =>
      have empty : d.queue.isEmpty = c.queue.isEmpty := by
        have queue := h.queue
        generalize c.queue = commands at queue ⊢
        generalize d.queue = others at queue ⊢
        cases queue <;> rfl
      simp only [Connection.step, empty]
      split
      next =>
        have alike : Alike peer kept { c with hasPeers := false } { d with hasPeers := false } :=
          { h with hasPeers := rfl }
        exact .same alike .nil
      next => exact .same h .nil
  | command =>
      simp only [Connection.step, h.phase]
      split
      next => exact h.takeCommand
      next => exact .same h .nil
  | arrival arrival =>
      simp only [Connection.step, h.phase]
      split
      next => exact h.receive arrival
      next => exact .same h .nil

omit h in
/-- To be spared calls that fail changes nothing but the tickets. -/
theorem run {events fewer : List Event} (spared : Spares (Event.Fails peer) events fewer)
    (h : Alike peer kept c d) : Alongside peer kept (c.run events) (d.run fewer) := by
  induction spared generalizing kept c d with
  | nil => exact .same h .nil
  | keep event _ ih => exact (h.step event).append ih
  | @drop event _ _ fails _ ih =>
      cases event with
      | call name args => exact (h.refused fails).append ih
      | _ => exact fails.elim

end Alike

end Connection

end DuplexRpc
