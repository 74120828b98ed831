import DuplexRpc.Proofs.Connection.Ending

/-!
# From a request to its response

An end that has read a two-way request does nothing else before it has answered: the handler
runs, what it asks for is queued, and then the response is written. So a call that a handler
makes can only be written behind the response of this handler. If there is no response, the
end does not serve any more, and then nothing is written at all.
-/

namespace DuplexRpc

namespace Trace

def Silent (t : List Effect) : Prop := ∀ effect ∈ t, effect.envelope? = none

theorem Silent.append {t u : List Effect} (h : Silent t) (k : Silent u) : Silent (t ++ u) :=
  List.forall_mem_append.mpr ⟨h, k⟩

theorem Asking.silent {t : List Effect} (h : Asking t) : Silent t := by
  intro effect hmem
  have asking := h effect hmem
  cases effect <;> first | rfl | cases asking

end Trace

namespace Connection

open Trace

variable {σ : Type} {c : Connection σ} {t : List Effect}

/-- What follows in a trace when a request for a two-way procedure has been read. -/
inductive Attended (c : Connection σ) (procedure : Procedure) (request : Envelope) :
    List Effect → Prop
  /-- The handler runs, and what it asks for is queued before the response is written. -/
  | answered {args : Values} {outcome : Outcome} {asked : List Effect} {response : Envelope}
      (asking : Asking asked) (id : response.callbackId = request.callbackId)
      (later : List Effect) : Attended c procedure request
        (.handled procedure.name args outcome :: asked ++ .responded response :: later)
  /-- There is no response, and there never is anything else either. -/
  | abandoned {later : List Effect} (stopped : c.phase ≠ .serving)
      (silent : Silent later) : Attended c procedure request later

/-- Every two-way request is attended to before anything else is written. -/
def Attends (c : Connection σ) (t : List Effect) : Prop :=
  ∀ ⦃before after arrival request procedure⦄, t = before ++ .received arrival :: after →
    arrival.request? = some request →
    (c.service.procedures c.side).find? request.procedure = some procedure →
    procedure.oneway = false → Attended c procedure request after

/-! ### Silence -/

theorem silent_finish (c : Connection σ) (error : Option ProtocolError) :
    Silent (c.finish error).2 := by
  intro effect hmem
  obtain rfl | hmem := List.mem_cons.mp hmem
  · rfl
  · obtain ⟨ticket, _, rfl⟩ := List.mem_map.mp hmem
    rfl

/-- An end that does not serve does nothing but queue and turn away what its peers ask for. -/
theorem asking_step (stopped : c.phase ≠ .serving) (event : Event) :
    (c.step event).1.phase = c.phase ∧ Asking (c.step event).2 := by
  cases event with
  | call name args =>
      obtain ⟨_, frame⟩ := call_frame c name args
      exact ⟨by rw [step, frame], asking_call c name args⟩
  | close =>
      obtain ⟨_, frame⟩ := close_frame c
      exact ⟨by rw [step, frame], asking_close c⟩
  | farGone => exact ⟨rfl, List.forall_mem_nil _⟩
  | peersGone =>
      rw [step]
      split <;> exact ⟨rfl, List.forall_mem_nil _⟩
  | command =>
      rw [step, if_neg stopped]
      exact ⟨rfl, List.forall_mem_nil _⟩
  | arrival arrival =>
      rw [step, if_neg stopped]
      exact ⟨rfl, List.forall_mem_nil _⟩

/-! ### Steps -/

/-- Whoever serves a two-way request answers it, or does not serve any more. -/
theorem attended_serve {request : Envelope} {procedure : Procedure}
    (found : (c.service.procedures c.side).find? request.procedure = some procedure)
    (twoWay : procedure.oneway = false) :
    Attended (c.serve request).1 procedure request (c.serve request).2 := by
  have asked : ∀ run : Run σ, Asking (c.ran run).2 :=
    fun run => asking_submit { c with state := run.state } run.requests
  have same : ∀ {other args run}, Runs c request other args run → other = procedure := by
    intro other args run runs
    exact Option.some.inj (runs.find.symm.trans found)
  have handled : ∀ {procedure : Procedure} {args : Values} {run : Run σ},
      Silent (.handled procedure.name args run.outcome :: (c.ran run).2) := by
    intro procedure args run
    exact List.forall_mem_cons.mpr ⟨rfl, (asked run).silent⟩
  have served := serves c request
  generalize c.serve request = result at served
  cases served with
  | unknown unknown =>
      rw [found] at unknown
      cases unknown
  | invalid _ _ => exact .abandoned nofun (silent_finish _ _)
  | stuck runs _ => exact .abandoned nofun handled
  | oneway runs _ oneway =>
      rw [same runs, twoWay] at oneway
      cases oneway
  | @answered other args run response runs responds _ _ =>
      obtain rfl := same runs
      exact .answered (asked run) (heads_of_responseTo responds).2 []
  | unanswered runs _ _ _ => exact .abandoned nofun (handled.append (silent_finish _ _))

theorem Attended.append {procedure : Procedure} {request : Envelope}
    (h : Attended c procedure request t) (event : Event) :
    Attended (c.step event).1 procedure request (t ++ (c.step event).2) := by
  cases h with
  | answered asking id later =>
      rw [List.append_assoc, List.cons_append]
      exact .answered asking id _
  | abandoned stopped silent =>
      obtain ⟨phase, asking⟩ := asking_step stopped event
      exact .abandoned (by rwa [phase]) (silent.append asking.silent)

/-- What is read in a step is read first. -/
theorem eq_of_step_received {event : Event} {arrival : Arrival} {before after : List Effect}
    (h : (c.step event).2 = before ++ .received arrival :: after) :
    c.step event = c.receive arrival ∧ after = (c.arrive arrival).2 := by
  by_cases reads : ∃ other, event = .arrival other ∧ c.phase = .serving
  · obtain ⟨other, rfl, serving⟩ := reads
    rw [step, if_pos serving] at h ⊢
    have effects : (c.receive other).2 = .received other :: (c.arrive other).2 := rfl
    rw [effects] at h
    cases before with
    | nil =>
        obtain ⟨same, rest⟩ := List.cons.inj h
        obtain rfl := Effect.received.inj same
        exact ⟨rfl, rest.symm⟩
    | cons first before =>
        have again : .received arrival ∈ (c.arrive other).2 := by
          rw [(List.cons.inj h).2]
          exact List.mem_append_right _ List.mem_cons_self
        exact absurd again (not_received_arrive c other)
  · have unread : ∀ other, event = .arrival other → c.phase ≠ .serving :=
      fun other same serving => reads ⟨other, same, serving⟩
    have read : .received arrival ∈ (c.step event).2 := by
      rw [h]
      exact List.mem_append_right _ List.mem_cons_self
    exact absurd read (step_of_not_read c unread).1.not_received

theorem Attends.nil (c : Connection σ) : Attends c [] := by
  intro before after arrival request procedure split
  cases before <;> cases split

theorem Attends.step (h : Attends c t) (event : Event) :
    Attends (c.step event).1 (t ++ (c.step event).2) := by
  intro before after arrival request procedure split read found twoWay
  have fixed := fixed_step c event
  rw [fixed.service, fixed.side] at found
  obtain ⟨more, earlier⟩ | ⟨more, _, now⟩ := split_append split
  · have kept := (h earlier read found twoWay).append event
    rw [earlier, List.append_assoc, List.cons_append] at split
    obtain ⟨_, rfl⟩ := List.cons.inj (List.append_cancel_left split)
    exact kept
  · obtain ⟨step, rfl⟩ := eq_of_step_received now
    obtain ⟨payload, rfl, envelope, kind⟩ := Arrival.request?_eq_some read
    have serves : c.arrive (.frame payload) = c.serve request := by
      simp only [arrive, envelope, kind]
    have next : (c.step event).1 = (c.serve request).1 := by
      rw [step, receive, serves]
    rw [next, serves]
    exact attended_serve found twoWay

theorem Attends.run (h : Attends c t) (events : List Event) :
    Attends (c.run events).1 (t ++ (c.run events).2) :=
  runSteps_trace_invariant Connection.step (P := Attends) (fun _ _ event kept => kept.step event) h
    events

end Connection

end DuplexRpc
