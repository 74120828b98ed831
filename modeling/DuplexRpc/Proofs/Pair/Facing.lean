import DuplexRpc.Proofs.Envelope
import DuplexRpc.Proofs.Pair.Lane

/-!
# Connections that face each other

Two connections of one service, one at each side, with a channel in either direction.
Whatever one of them does keeps both lanes between them. Neither ends because of what
the other one wrote: all that can go wrong is the way in between.
-/

namespace DuplexRpc

/-! ### What is written can be read -/

namespace Connection

variable {σ : Type} {c : Connection σ}

theorem Expected.portable {s : Sent} (h : Expected c s.call) : s.request.Portable := by
  rintro data ⟨⟩
  exact h.fits.portable h.wellFormed.args

theorem portable_of_responseTo {id : CallbackId} {procedure : Procedure}
    (wf : procedure.WellFormed) {outcome : Outcome} {response : Envelope}
    (h : responseTo id procedure outcome = some response) : response.Portable := by
  unfold responseTo at h
  split at h
  next =>
    obtain rfl := Option.some.inj h
    split
    next rets hconform =>
      rintro data ⟨⟩
      exact (fits_of_conform wf.rets hconform).portable wf.rets
    next => exact nofun
  next =>
    obtain rfl := Option.some.inj h
    exact nofun
  next => cases h

theorem isFair_of_phase {d : Connection σ} (h : c.IsFair) (hp : d.phase = c.phase) : d.IsFair := by
  intro error he
  exact h error (hp ▸ he)

theorem isFair_finish (c : Connection σ) {error : Option ProtocolError}
    (h : ∀ e, error = some e → ∃ fault, e = .transport fault) : (c.finish error).1.IsFair :=
  fun e he => h e (Phase.ended.inj he)

theorem isFair_takeCommand (h : c.IsFair) : c.takeCommand.1.IsFair := by
  by_cases hq : c.queue = []
  · simpa only [takeCommand, hq] using h
  · rcases takeCommand_cases hq with ⟨rest, _, ht⟩ | ⟨call, id, d, htaken, ht⟩ | ⟨_, ht⟩
    · rw [ht]
      refine isFair_finish _ fun e he => ?_
      cases he
    · have hp : d.phase = c.phase := by cases htaken <;> rfl
      rw [ht]
      simp only [write]
      split
      next => exact isFair_of_phase h hp
      next fault _ =>
        refine isFair_finish _ ?_
        rintro error ⟨⟩
        exact ⟨fault, rfl⟩
    · rw [ht]
      intro error he
      cases he

theorem isFair_step (h : c.IsFair) {event : Event}
    (hread : ∀ arrival, event = .arrival arrival → c.phase ≠ .serving) :
    (c.step event).1.IsFair := by
  cases event with
  | arrival arrival =>
      rw [step, if_neg (hread arrival rfl)]
      exact h
  | command =>
      rw [step]
      split
      next => exact isFair_takeCommand h
      next => exact h
  | call name args =>
      obtain ⟨_, hframe⟩ := call_frame c name args
      rw [step, hframe]
      exact isFair_of_phase h rfl
  | close =>
      obtain ⟨_, hframe⟩ := close_frame c
      rw [step, hframe]
      exact isFair_of_phase h rfl
  | peersGone =>
      rw [step]
      split <;> exact h
  | farGone => exact isFair_of_phase h rfl

theorem reading (c : Connection σ) (arrival : Arrival) : Move c [.received arrival] c :=
  .aside c.state c.hasPeers c.outlet (by simp) (by simp)

end Connection

/-! ### The two ends -/

open Connection

variable {σ τ : Type}

/-- Two connections at the two sides of one service, with what each has done so far and what is
under way between them. -/
structure Facing (service : Service) (side : Side) (a : Connection σ) (b : Connection τ)
    (ta tb : List Effect) (ab ba : List Envelope) : Prop where
  wellFormed : service.WellFormed
  nearService : a.service = service
  farService : b.service = service
  nearSide : a.side = side
  farSide : b.side = side.opposite
  near : Accounts a ta
  far : Accounts b tb
  nearFair : a.IsFair
  farFair : b.IsFair
  forth : ∃ served underway, LaneOf a b ta tb ab ba served underway
  back : ∃ served underway, LaneOf b a tb ta ba ab served underway

namespace Facing

variable {service : Service} {side : Side} {a : Connection σ} {b : Connection τ}
variable {ta tb : List Effect} {ab ba : List Envelope}

theorem symm (h : Facing service side a b ta tb ab ba) :
    Facing service side.opposite b a tb ta ba ab where
  wellFormed := h.wellFormed
  nearService := h.farService
  farService := h.nearService
  nearSide := h.farSide
  farSide := by rw [h.nearSide, Side.opposite_opposite]
  near := h.far
  far := h.near
  nearFair := h.farFair
  farFair := h.nearFair
  forth := h.back
  back := h.forth

/-- What one end has checked, the other end can serve. -/
theorem expected (h : Facing service side a b ta tb ab ba) {call : Call}
    (hcall : call ∈ Trace.queued ta) : Expected b call := by
  obtain ⟨name, args, _, hprepare⟩ := h.near.prepared call hcall
  obtain ⟨hfind, hconform⟩ := Peer.eq_of_prepare hprepare
  change (a.service.procedures a.side.opposite).find? name = some call.procedure at hfind
  rw [h.nearService, h.nearSide] at hfind
  have hname := h.wellFormed.name hfind
  have wf := h.wellFormed.procedure hfind
  refine ⟨?_, wf, fits_of_conform wf.args hconform⟩
  rw [h.farService, h.farSide, hname]
  exact hfind

/-- Both ends can read what is under way to them. -/
theorem portable {e : Envelope} (h : Facing service side a b ta tb ab (e :: ba))
    (hp : a.phase = .serving) : e.Portable := by
  cases hkind : e.kind with
  | request =>
      obtain ⟨served, underway, lane⟩ := h.back
      have hmem : e ∈ (e :: ba).filter Envelope.isRequest :=
        List.mem_filter.mpr ⟨List.mem_cons_self, by simp [Envelope.isRequest, hkind]⟩
      rw [lane.inFlight hp] at hmem
      obtain ⟨s, hs, rfl⟩ := List.mem_map.mp hmem
      obtain ⟨rest, hqueued, _⟩ := lane.order
      have hcall : s.call ∈ Trace.queued tb := by
        rw [hqueued]
        exact List.mem_append_left _ (List.mem_map_of_mem (List.mem_append_right _ hs))
      exact (h.symm.expected hcall).portable
  | response =>
      obtain ⟨served, underway, lane⟩ := h.forth
      have hover : a.isOver = false := by simp [isOver, hp]
      obtain ⟨settled, answered, lost, hserved, hanswers, _, _⟩ := lane.answers hover
      have hmem : some e ∈ ((e :: ba).filter Envelope.isResponse).map some :=
        List.mem_map_of_mem (List.mem_filter.mpr
          ⟨List.mem_cons_self, by simp [Envelope.isResponse, hkind]⟩)
      rw [hanswers] at hmem
      obtain ⟨x, hx, hresponse⟩ := List.mem_map.mp hmem
      have hx : x ∈ served := by
        refine (List.mem_filter.mp (?_ : x ∈ served.filter (·.isTwoWay))).1
        simp [hserved, hx]
      obtain ⟨rest, hqueued, _⟩ := lane.order
      have hcall : x.call ∈ Trace.queued ta := by
        rw [hqueued]
        refine List.mem_append_left _ (List.mem_map_of_mem (List.mem_append_left _ ?_))
        exact List.mem_map_of_mem hx
      exact portable_of_responseTo (h.expected hcall).wellFormed hresponse

/-! ### What one end does -/

/-- After a step of one end it is enough to look at the lanes, and at how that end stands. -/
theorem of_lanes (h : Facing service side a b ta tb ab ba) (event : Event) {left : List Envelope}
    (hfair : (a.step event).1.IsFair)
    (forth : ∃ served underway, LaneOf (a.step event).1 b (ta ++ (a.step event).2) tb
      (ab ++ Trace.envelopes (a.step event).2) left served underway)
    (back : ∃ served underway, LaneOf b (a.step event).1 tb (ta ++ (a.step event).2) left
      (ab ++ Trace.envelopes (a.step event).2) served underway) :
    Facing service side (a.step event).1 b (ta ++ (a.step event).2) tb
      (ab ++ Trace.envelopes (a.step event).2) left := by
  have fixed := fixed_step a event
  exact {
    wellFormed := h.wellFormed
    nearService := fixed.service.trans h.nearService
    farService := h.farService
    nearSide := fixed.side.trans h.nearSide
    farSide := h.farSide
    near := h.near.step event
    far := h.far
    nearFair := hfair
    farFair := h.farFair
    forth, back }

/-- Nothing is read. -/
theorem idle (h : Facing service side a b ta tb ab ba) {event : Event}
    (hread : ∀ arrival, event = .arrival arrival → a.phase ≠ .serving) :
    Facing service side (a.step event).1 b (ta ++ (a.step event).2) tb
      (ab ++ Trace.envelopes (a.step event).2) ba := by
  obtain ⟨served, underway, forth⟩ := h.forth
  obtain ⟨servedBack, underwayBack, back⟩ := h.back
  obtain ⟨hquiet, _, hphase⟩ := step_of_not_read a hread
  refine h.of_lanes event (isFair_step h.nearFair hread) ?_ ⟨servedBack, underwayBack, ?_⟩
  · rcases step_cases a event with hmoves | ⟨payload, _, rfl, hp, _⟩
    · obtain ⟨more, forth⟩ := forth.moves h.near hmoves
      exact ⟨served, underway ++ more, forth⟩
    · exact absurd hp (hread _ rfl)
  · refine back.callee (kinded_step a event) hquiet.started hquiet.responses fun hserving => ?_
    rcases hphase with hp | ⟨hp, _⟩
    · exact ⟨hp, rfl⟩
    · exact ⟨hp ▸ hserving, rfl⟩

/-- The stream comes to an end. What is left in it does not matter any more. -/
theorem cut (h : Facing service side a b ta tb ab ba) (hp : a.phase = .serving) {arrival : Arrival}
    {error : Option ProtocolError} (harrive : a.arrive arrival = a.finish error)
    (hfair : ∀ e, error = some e → ∃ fault, e = .transport fault)
    (hrequest : arrival.request? = none) (left : List Envelope) :
    Facing service side (a.step (.arrival arrival)).1 b (ta ++ (a.step (.arrival arrival)).2) tb
      (ab ++ Trace.envelopes (a.step (.arrival arrival)).2) left := by
  obtain ⟨served, underway, forth⟩ := h.forth
  obtain ⟨servedBack, underwayBack, back⟩ := h.back
  have hstep : a.step (.arrival arrival) =
      ((a.finish error).1, .received arrival :: (a.finish error).2) := by
    rw [step, if_pos hp, receive, harrive]
  have kinded := kinded_step a (.arrival arrival)
  have quiet := quiet_finish a error
  refine h.of_lanes _ ?_ ?_ ⟨servedBack, underwayBack, ?_⟩ <;> rw [hstep] at *
  · exact isFair_finish a hfair
  · obtain ⟨more, forth⟩ :=
      forth.moves h.near (.cons (reading a arrival) (Move.ended error).moves)
    refine ⟨served, underway ++ more, forth.take fun hover => ?_⟩
    cases hover
  · refine back.callee kinded ?_ ?_ fun hserving => ?_
    · simp [hrequest, quiet.started]
    · simp [quiet.responses]
    · cases hserving

/-- A request is read, which the far end has written. -/
theorem readRequest {e : Envelope} (h : Facing service side a b ta tb ab (e :: ba))
    (hp : a.phase = .serving) (hread : Envelope.ofBytes? e.toBytes = some e)
    (hkind : e.kind = .request) :
    Facing service side (a.step (.arrival (.frame e.toBytes))).1 b
      (ta ++ (a.step (.arrival (.frame e.toBytes))).2) tb
      (ab ++ Trace.envelopes (a.step (.arrival (.frame e.toBytes))).2) ba := by
  obtain ⟨served, underway, forth⟩ := h.forth
  obtain ⟨servedBack, underwayBack, back⟩ := h.back
  have hstep : a.step (.arrival (.frame e.toBytes)) =
      ((a.serve e).1, .received (.frame e.toBytes) :: (a.serve e).2) := by
    rw [step, if_pos hp]
    simp only [receive, arrive, hread, hkind]
  have hresponses : (e :: ba).filter Envelope.isResponse = ba.filter Envelope.isResponse := by
    simp [Envelope.isResponse, hkind]
  have hrequest := Arrival.request?_frame hread hkind
  obtain ⟨hfair, x, rest, back⟩ :=
    back.serve hp hkind (fun _ hcall => h.symm.expected hcall) hrequest
  refine h.of_lanes _ ?_ ?_ ?_ <;> rw [hstep]
  · exact hfair
  · obtain ⟨more, forth⟩ := (forth.take fun _ => hresponses.symm).moves h.near
      (.cons (reading a (.frame e.toBytes)) (serve_moves hp e))
    exact ⟨served, underway ++ more, forth⟩
  · exact ⟨servedBack ++ [x], rest, back⟩

/-- A response is read, which the far end has written. -/
theorem readResponse {e : Envelope} (h : Facing service side a b ta tb ab (e :: ba))
    (hp : a.phase = .serving) (hread : Envelope.ofBytes? e.toBytes = some e)
    (hkind : e.kind = .response) :
    Facing service side (a.step (.arrival (.frame e.toBytes))).1 b
      (ta ++ (a.step (.arrival (.frame e.toBytes))).2) tb
      (ab ++ Trace.envelopes (a.step (.arrival (.frame e.toBytes))).2) ba := by
  obtain ⟨served, underway, forth⟩ := h.forth
  obtain ⟨servedBack, underwayBack, back⟩ := h.back
  have hstep : a.step (.arrival (.frame e.toBytes)) =
      ((a.settle e).1, .received (.frame e.toBytes) :: (a.settle e).2) := by
    rw [step, if_pos hp, receive_frame hread hkind]
  have hrequests : (e :: ba).filter Envelope.isRequest = ba.filter Envelope.isRequest := by
    simp [Envelope.isRequest, hkind]
  have hrequest : (Arrival.frame e.toBytes).request? = none := by
    simp [Arrival.request?, hread, hkind]
  have kinded := kinded_step a (.arrival (.frame e.toBytes))
  have quiet := quiet_settle a e
  obtain ⟨x, _, _, _, hsettled, forth⟩ := forth.settle h.near hp hkind (.frame e.toBytes)
  refine h.of_lanes _ ?_ ⟨served, underway, ?_⟩ ⟨servedBack, underwayBack, ?_⟩ <;>
    rw [hstep] at *
  · exact isFair_of_phase h.nearFair (phase_settle a e)
  · simpa [hsettled] using forth
  · refine back.callee kinded ?_ ?_ fun _ => ⟨hp, hrequests.symm⟩
    · simp [hrequest, quiet.started]
    · simp [quiet.responses]

/-- The next envelope is read. -/
theorem read {e : Envelope} (h : Facing service side a b ta tb ab (e :: ba))
    (hp : a.phase = .serving) :
    Facing service side (a.step (.arrival (.frame e.toBytes))).1 b
      (ta ++ (a.step (.arrival (.frame e.toBytes))).2) tb
      (ab ++ Trace.envelopes (a.step (.arrival (.frame e.toBytes))).2) ba := by
  have hread := Envelope.ofBytes?_toBytes (h.portable hp)
  cases hkind : e.kind with
  | request => exact h.readRequest hp hread hkind
  | response => exact h.readResponse hp hread hkind

end Facing

end DuplexRpc
