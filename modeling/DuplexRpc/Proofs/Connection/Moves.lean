import DuplexRpc.Proofs.Trace

/-!
# Moves of a connection

Whatever an end of a connection does is made of a few moves: a call is turned away or
queued, the next command is taken up, a handler runs, the connection ends. What every
move keeps is kept by every step, however many calls a handler makes.

The one step that is no sequence of moves is to read a response. Only there does the far
end have a say in the result of a call.
-/

namespace DuplexRpc

theorem Peer.eq_of_prepare {peer : Peer} {name : String} {args checked : Values}
    {procedure : Procedure} (h : peer.prepare name args = .ok (procedure, checked)) :
    (peer.service.procedures peer.side).find? name = some procedure ∧
      conform procedure.args (some args.toJson) = .ok checked := by
  unfold prepare at h
  split at h
  next => cases h
  next found hfind =>
    split at h
    next hconform =>
      obtain ⟨rfl, rfl⟩ := Prod.mk.inj (Except.ok.inj h)
      exact ⟨hfind, hconform⟩
    next => cases h

namespace Connection

variable {σ : Type}

/-- Taking the call at the head of the queue, up to where its request can be written. -/
inductive Taken (c : Connection σ) (call : Call) : CallbackId → Connection σ → Prop
  | oneway {rest : List Command} (hqueue : c.queue = .call call :: rest)
      (honeway : call.procedure.oneway = true) : Taken c call .none { c with queue := rest }
  | twoWay {rest : List Command} {id : CallbackId} {pending : PendingCalls Call}
      (hqueue : c.queue = .call call :: rest) (honeway : call.procedure.oneway = false)
      (hregister : c.pending.register? call = some (id, pending)) :
      Taken c call id { c with queue := rest, pending }

/-- What a connection does at a time, with the effects of it. -/
inductive Move : Connection σ → List Effect → Connection σ → Prop
  /-- Something that no caller at this end takes notice of. -/
  | aside {c : Connection σ} (state : σ) (hasPeers : Bool) (outlet : Outlet)
      {effects : List Effect} (hserving : ∀ effect ∈ effects, effect.isServing)
      (hkind : ∀ response ∈ Trace.responses effects, response.kind = .response) :
      Move c effects { c with state, hasPeers, outlet }
  | stuck {c : Connection σ} (hphase : c.phase = .serving) : Move c [] { c with phase := .stuck }
  | rejected {c : Connection σ} {name : String} {args : Values} {error : CallError}
      (hprepare : c.peer.prepare name args = .error error) :
      Move c [.called c.nextTicket name args, .resolved c.nextTicket (.error error)]
        { c with nextTicket := c.nextTicket + 1 }
  | unheard {c : Connection σ} {name : String} {args : Values} {prepared : Procedure × Values}
      (hprepare : c.peer.prepare name args = .ok prepared) (haccepts : c.accepts = false) :
      Move c [.called c.nextTicket name args, .resolved c.nextTicket (.error .connectionClosed)]
        { c with nextTicket := c.nextTicket + 1 }
  | queued {c : Connection σ} {name : String} {args : Values} {call : Call}
      (hprepare : c.peer.prepare name args = .ok (call.procedure, call.args))
      (haccepts : c.accepts = true) (hticket : call.ticket = c.nextTicket) :
      Move c (.called call.ticket name args :: .queued (.call call) ::
          if call.procedure.oneway then [.resolved call.ticket (.ok .empty)] else [])
        { c with nextTicket := c.nextTicket + 1, queue := c.queue ++ [.call call] }
  | closing {c : Connection σ} (haccepts : c.accepts = true) :
      Move c [.queued .close] { c with queue := c.queue ++ [.close] }
  | takeClose {c : Connection σ} {rest : List Command} (hqueue : c.queue = .close :: rest) :
      Move c [] { c with queue := rest }
  | sent {c d : Connection σ} {call : Call} {id : CallbackId} (htaken : Taken c call id d) :
      Move c [.requested call.ticket (.request call.procedure.name id call.args)] d
  /-- A request cannot be written; a two-way call waits already. -/
  | unsent {c d : Connection σ} {call : Call} {id : CallbackId} (fault : TransportFault)
      (htaken : Taken c call id d) :
      Move c (d.fail (.transport fault)).2 (d.fail (.transport fault)).1
  | ended {c : Connection σ} (error : Option ProtocolError) :
      Move c (c.finish error).2 (c.finish error).1

inductive Moves : Connection σ → List Effect → Connection σ → Prop
  | refl {c : Connection σ} : Moves c [] c
  | cons {c d e : Connection σ} {first later : List Effect} (hmove : Move c first d)
      (hlater : Moves d later e) : Moves c (first ++ later) e

variable {c d e : Connection σ}

theorem Move.moves {effects : List Effect} (h : Move c effects d) : Moves c effects d := by
  have := Moves.cons h .refl
  rwa [List.append_nil] at this

theorem Moves.trans {first later : List Effect} (h : Moves c first d) (hl : Moves d later e) :
    Moves c (first ++ later) e := by
  induction h with
  | refl => exact hl
  | cons hmove _ ih =>
      rw [List.append_assoc]
      exact .cons hmove (ih hl)

/-- What every move keeps is kept by all moves. -/
theorem Moves.invariant {P : Connection σ → List Effect → Prop}
    (hmove : ∀ {c d : Connection σ} {t effects}, Move c effects d → P c t →
      P d (t ++ effects))
    {effects : List Effect} (h : Moves c effects d) {t : List Effect} (hc : P c t) :
    P d (t ++ effects) := by
  induction h generalizing t with
  | refl => rwa [List.append_nil]
  | cons hfirst _ ih =>
      rw [← List.append_assoc]
      exact ih (hmove hfirst hc)

/-! ### What never changes -/

/-- The session, the service and the side of a connection are those it was started with. -/
structure Fixed (c d : Connection σ) : Prop where
  session : d.session = c.session
  service : d.service = c.service
  side : d.side = c.side

theorem Fixed.peer (h : Fixed c d) : d.peer = c.peer := by
  rw [Connection.peer, h.service, h.side]
  rfl

theorem Fixed.trans (h : Fixed c d) (hd : Fixed d e) : Fixed c e :=
  ⟨hd.session.trans h.session, hd.service.trans h.service, hd.side.trans h.side⟩

theorem Taken.fixed {call : Call} {id : CallbackId} (h : Taken c call id d) : Fixed c d := by
  cases h <;> exact ⟨rfl, rfl, rfl⟩

theorem Move.fixed {effects : List Effect} (h : Move c effects d) : Fixed c d := by
  cases h with
  | sent htaken => exact htaken.fixed
  | unsent _ htaken => exact htaken.fixed.trans ⟨rfl, rfl, rfl⟩
  | _ => exact ⟨rfl, rfl, rfl⟩

theorem Moves.fixed {effects : List Effect} (h : Moves c effects d) : Fixed c d := by
  induction h with
  | refl => exact ⟨rfl, rfl, rfl⟩
  | cons hmove _ ih => exact hmove.fixed.trans ih

/-! ### Calls -/

section

variable {name : String} {args : Values}

theorem call_of_error {error : CallError} (h : c.peer.prepare name args = .error error) :
    c.call name args = ({ c with nextTicket := c.nextTicket + 1 },
      [.called c.nextTicket name args, .resolved c.nextTicket (.error error)]) := by
  have hprepare : { c with nextTicket := c.nextTicket + 1 }.peer.prepare name args = .error error :=
    h
  simp only [call, hprepare]

theorem call_of_not_accepts {prepared : Procedure × Values}
    (h : c.peer.prepare name args = .ok prepared) (ha : c.accepts = false) :
    c.call name args = ({ c with nextTicket := c.nextTicket + 1 },
      [.called c.nextTicket name args, .resolved c.nextTicket (.error .connectionClosed)]) := by
  have hprepare : { c with nextTicket := c.nextTicket + 1 }.peer.prepare name args = .ok prepared :=
    h
  have haccepts : { c with nextTicket := c.nextTicket + 1 }.accepts = false := ha
  simp [call, hprepare, haccepts]

theorem call_of_accepts {procedure : Procedure} {checked : Values}
    (h : c.peer.prepare name args = .ok (procedure, checked)) (ha : c.accepts = true) :
    c.call name args =
      ({ c with nextTicket := c.nextTicket + 1,
                queue := c.queue ++ [.call ⟨c.nextTicket, procedure, checked⟩] },
        .called c.nextTicket name args :: .queued (.call ⟨c.nextTicket, procedure, checked⟩) ::
          if procedure.oneway then [.resolved c.nextTicket (.ok .empty)] else []) := by
  have hprepare : { c with nextTicket := c.nextTicket + 1 }.peer.prepare name args =
    .ok (procedure, checked) := h
  have haccepts : { c with nextTicket := c.nextTicket + 1 }.accepts = true := ha
  simp [call, enqueue, hprepare, haccepts]

theorem call_move (c : Connection σ) (name : String) (args : Values) :
    Move c (c.call name args).2 (c.call name args).1 := by
  cases hp : c.peer.prepare name args with
  | error error =>
      rw [call_of_error hp]
      exact .rejected hp
  | ok prepared =>
      obtain ⟨procedure, checked⟩ := prepared
      cases ha : c.accepts with
      | false =>
          rw [call_of_not_accepts hp ha]
          exact .unheard hp ha
      | true =>
          rw [call_of_accepts hp ha]
          let call : Call := ⟨c.nextTicket, procedure, checked⟩
          have hprepare : c.peer.prepare name args = .ok (call.procedure, call.args) := hp
          exact .queued hprepare ha rfl

end

theorem close_moves (c : Connection σ) : Moves c c.close.2 c.close.1 := by
  unfold close
  split
  next haccepts => exact (Move.closing haccepts).moves
  next => exact .refl

/-- What a call and the asking for a close keep is kept by all that a handler asks for. -/
theorem submit_invariant {P : Connection σ → List Effect → Prop}
    (called : ∀ {d : Connection σ} {t : List Effect} (name : String) (args : Values), P d t →
      P (d.call name args).1 (t ++ (d.call name args).2))
    (closed : ∀ {d : Connection σ} {t : List Effect}, P d t → P d.close.1 (t ++ d.close.2))
    {t : List Effect} (h : P c t) (requests : List Request) :
    P (c.submit requests).1 (t ++ (c.submit requests).2) := by
  refine runSteps_trace_invariant submitOne (P := P) (fun d t request kept => ?_) h requests
  cases request with
  | call name args => exact called name args kept
  | close => exact closed kept

theorem submit_moves (c : Connection σ) (requests : List Request) :
    Moves c (c.submit requests).2 (c.submit requests).1 :=
  submit_invariant (P := fun d t => Moves c t d)
    (fun {d _} name args moves => moves.trans (call_move d name args).moves)
    (fun {d _} moves => moves.trans (close_moves d)) .refl requests

/-! ### Frames

What the operations leave as it is. -/

theorem call_frame (c : Connection σ) (name : String) (args : Values) :
    ∃ queue, (c.call name args).1 = { c with queue, nextTicket := c.nextTicket + 1 } := by
  cases hp : c.peer.prepare name args with
  | error error => exact ⟨c.queue, by rw [call_of_error hp]⟩
  | ok prepared =>
      cases ha : c.accepts with
      | false => exact ⟨c.queue, by rw [call_of_not_accepts hp ha]⟩
      | true => exact ⟨_, by rw [call_of_accepts hp ha]⟩

theorem close_frame (c : Connection σ) : ∃ queue, c.close.1 = { c with queue } := by
  unfold close
  split
  next => exact ⟨_, rfl⟩
  next => exact ⟨c.queue, rfl⟩

/-- What a handler asks for changes nothing but the queue and the next ticket. -/
theorem submit_frame (c : Connection σ) (requests : List Request) :
    ∃ queue nextTicket, (c.submit requests).1 = { c with queue, nextTicket } := by
  refine submit_invariant (P := fun d _ => ∃ queue nextTicket, d = { c with queue, nextTicket })
    ?_ ?_ (t := []) ⟨c.queue, c.nextTicket, rfl⟩ requests
  · rintro d _ name args ⟨_, _, rfl⟩
    obtain ⟨queue, frame⟩ := call_frame _ name args
    exact ⟨queue, _, frame⟩
  · rintro d _ ⟨_, _, rfl⟩
    obtain ⟨queue, frame⟩ := close_frame _
    exact ⟨queue, _, frame⟩

/-! ### Steps -/

theorem respond_moves (c : Connection σ) {response : Envelope} (hk : response.kind = .response) :
    Moves c (c.respond response).2 (c.respond response).1 := by
  unfold respond
  split
  next =>
    refine (Move.aside c.state c.hasPeers c.outlet ?_ ?_).moves
    · simp
    · simpa using hk
  next fault _ => exact (Move.ended _).moves

theorem heads_of_responseTo {id : CallbackId} {procedure : Procedure} {outcome : Outcome}
    {response : Envelope} (h : responseTo id procedure outcome = some response) :
    response.kind = .response ∧ response.callbackId = id := by
  unfold responseTo at h
  split at h
  next =>
    obtain rfl := Option.some.inj h
    split <;> exact ⟨rfl, rfl⟩
  next =>
    obtain rfl := Option.some.inj h
    exact ⟨rfl, rfl⟩
  next => cases h

/-- What a run of a handler has done to the connection by the time of its answer. -/
def ran (c : Connection σ) (run : Run σ) : Connection σ × List Effect :=
  { c with state := run.state }.submit run.requests

theorem ran_frame (c : Connection σ) (run : Run σ) :
    ∃ queue nextTicket, (c.ran run).1 = { c with state := run.state, queue, nextTicket } :=
  submit_frame _ _

section

variable {id : CallbackId} {procedure : Procedure} {args : Values} {run : Run σ}

theorem runHandler_of_stuck (hrun : c.session.handle c.peer c.state procedure args = run)
    (hr : responseTo id procedure run.outcome = none) :
    c.runHandler id procedure args = ({ (c.ran run).1 with phase := .stuck },
      .handled procedure.name args run.outcome :: (c.ran run).2) := by
  subst hrun
  simp only [runHandler, hr]
  rfl

theorem runHandler_of_oneway (hrun : c.session.handle c.peer c.state procedure args = run)
    {response : Envelope} (hr : responseTo id procedure run.outcome = some response)
    (ho : procedure.oneway = true) :
    c.runHandler id procedure args =
      ((c.ran run).1, .handled procedure.name args run.outcome :: (c.ran run).2) := by
  subst hrun
  simp only [runHandler, hr, ho, if_true]
  rfl

theorem runHandler_of_twoWay (hrun : c.session.handle c.peer c.state procedure args = run)
    {response : Envelope} (hr : responseTo id procedure run.outcome = some response)
    (ho : procedure.oneway = false) :
    c.runHandler id procedure args = (((c.ran run).1.respond response).1,
      .handled procedure.name args run.outcome :: (c.ran run).2 ++
        ((c.ran run).1.respond response).2) := by
  subst hrun
  simp only [runHandler, hr, ho]
  rfl

end

theorem runHandler_moves (hp : c.phase = .serving) (id : CallbackId) (procedure : Procedure)
    (args : Values) :
    Moves c (c.runHandler id procedure args).2 (c.runHandler id procedure args).1 := by
  obtain ⟨run, hrun⟩ : ∃ run, c.session.handle c.peer c.state procedure args = run :=
    ⟨_, rfl⟩
  have begun : Move c [.handled procedure.name args run.outcome] { c with state := run.state } :=
    .aside run.state c.hasPeers c.outlet (by simp) (by simp)
  have submitted := Moves.cons begun (submit_moves _ run.requests)
  cases hr : responseTo id procedure run.outcome with
  | none =>
      rw [runHandler_of_stuck hrun hr]
      have serving : (c.ran run).1.phase = .serving := by
        obtain ⟨_, _, h⟩ := ran_frame c run
        rw [h]
        exact hp
      have := submitted.trans (Move.stuck serving).moves
      rwa [List.append_nil] at this
  | some response =>
      cases ho : procedure.oneway with
      | true =>
          rw [runHandler_of_oneway hrun hr ho]
          exact submitted
      | false =>
          rw [runHandler_of_twoWay hrun hr ho]
          exact submitted.trans (respond_moves _ (heads_of_responseTo hr).1)

theorem serve_moves (hp : c.phase = .serving) (request : Envelope) :
    Moves c (c.serve request).2 (c.serve request).1 := by
  unfold serve
  split
  next => exact (Move.ended _).moves
  next =>
    split
    next => exact (Move.ended _).moves
    next => exact runHandler_moves hp _ _ _

theorem write_move {call : Call} {id : CallbackId} (h : Taken c call id d) :
    Move c (d.write call id).2 (d.write call id).1 := by
  simp only [write]
  split
  next => exact .sent h
  next fault _ => exact .unsent fault h

/-- The next command is a call for which there is no id. -/
def IsBarred (c : Connection σ) : Prop :=
  ∃ call rest, c.queue = .call call :: rest ∧ call.procedure.oneway = false ∧
    c.pending.register? call = none

/-- The next command is taken up, unless there is no id for it. -/
theorem takeCommand_cases (hq : c.queue ≠ []) :
    (∃ rest, c.queue = .close :: rest ∧
        c.takeCommand = { c with queue := rest }.finish none) ∨
      (∃ call id d, Taken c call id d ∧ c.takeCommand = d.write call id) ∨
        c.IsBarred ∧ c.takeCommand = ({ c with phase := .stuck }, []) := by
  unfold takeCommand
  split
  next h => exact absurd h hq
  next rest h => exact .inl ⟨rest, h, rfl⟩
  next call rest h =>
    unfold send
    cases ho : call.procedure.oneway with
    | true => exact .inr (.inl ⟨call, .none, _, .oneway h ho, rfl⟩)
    | false =>
        cases hr : c.pending.register? call with
        | none =>
            refine .inr (.inr ⟨⟨call, rest, h, ho, hr⟩, ?_⟩)
            simp [← h]
        | some registered =>
            obtain ⟨id, pending⟩ := registered
            refine .inr (.inl ⟨call, id, _, .twoWay h ho hr, ?_⟩)
            simp

theorem takeCommand_moves (hp : c.phase = .serving) :
    Moves c c.takeCommand.2 c.takeCommand.1 := by
  by_cases hq : c.queue = []
  · simp only [takeCommand, hq]
    exact .refl
  · rcases takeCommand_cases hq with ⟨rest, hq, h⟩ | ⟨call, id, d, htaken, h⟩ | ⟨_, h⟩
    · rw [h]
      exact .cons (.takeClose hq) (Move.ended none).moves
    · rw [h]
      exact (write_move htaken).moves
    · rw [h]
      exact (Move.stuck hp).moves

/-- The moves of a connection that reads something that is not a response. -/
theorem arrive_moves (hp : c.phase = .serving) {arrival : Arrival}
    (h : ∀ payload response, arrival = .frame payload →
      Envelope.ofBytes? payload = some response → response.kind = .request) :
    Moves c (c.arrive arrival).2 (c.arrive arrival).1 := by
  unfold arrive
  split
  next => exact (Move.ended _).moves
  next => exact (Move.ended _).moves
  next payload =>
    split
    next => exact (Move.ended _).moves
    next envelope hread =>
      rw [h payload envelope rfl hread]
      exact serve_moves hp envelope

theorem receive_frame {payload : Bytes} {response : Envelope}
    (hread : Envelope.ofBytes? payload = some response) (hk : response.kind = .response) :
    c.receive (.frame payload) =
      ((c.settle response).1, .received (.frame payload) :: (c.settle response).2) := by
  simp only [receive, arrive, hread, hk]

/-- A step is a sequence of moves or the reading of a response. -/
theorem step_cases (c : Connection σ) (event : Event) :
    Moves c (c.step event).2 (c.step event).1 ∨
      ∃ payload response, event = .arrival (.frame payload) ∧ c.phase = .serving ∧
        Envelope.ofBytes? payload = some response ∧ response.kind = .response ∧
        c.step event =
          ((c.settle response).1, .received (.frame payload) :: (c.settle response).2) := by
  cases event with
  | call name args => exact .inl (call_move c name args).moves
  | close => exact .inl (close_moves c)
  | farGone =>
      have closed : Move c [] (c.step .farGone).1 :=
        .aside c.state c.hasPeers { c.outlet with isOpen := false } (by simp) (by simp)
      exact .inl closed.moves
  | peersGone =>
      refine .inl ?_
      simp only [step]
      split
      next => exact (Move.aside c.state false c.outlet (by simp) (by simp)).moves
      next => exact .refl
  | command =>
      refine .inl ?_
      simp only [step]
      split
      next hp => exact takeCommand_moves hp
      next => exact .refl
  | arrival arrival =>
      simp only [step]
      split
      next hp =>
        by_cases h : ∀ payload response, arrival = .frame payload →
            Envelope.ofBytes? payload = some response → response.kind = .request
        · have read : Move c [.received arrival] c :=
            .aside c.state c.hasPeers c.outlet (by simp) (by simp)
          exact .inl (.cons read (arrive_moves hp h))
        · simp only [Classical.not_forall] at h
          obtain ⟨payload, response, rfl, hread, hk⟩ := h
          have hk : response.kind = .response := by
            cases hkind : response.kind with
            | request => exact absurd hkind hk
            | response => rfl
          exact .inr ⟨payload, response, rfl, hp, hread, hk, receive_frame hread hk⟩
      next => exact .inl .refl

theorem fixed_step (c : Connection σ) (event : Event) : Fixed c (c.step event).1 := by
  rcases step_cases c event with hmoves | ⟨payload, response, _, _, _, _, hstep⟩
  · exact hmoves.fixed
  · rw [hstep]
    unfold settle
    split <;> exact ⟨rfl, rfl, rfl⟩

end Connection

end DuplexRpc
