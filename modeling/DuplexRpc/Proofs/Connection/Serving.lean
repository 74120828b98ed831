import DuplexRpc.Proofs.Connection.Moves

/-!
# Serving

What an end does for the far end is decided by the requests that it reads, in the order
in which it reads them. Calls of its own, responses and the going of its peers may come
in between, but they neither run a handler nor write a response, and no handler sees
them in the state of the session.
-/

namespace DuplexRpc

/-- Nothing is read, run or answered. -/
def Trace.Quiet (effects : List Effect) : Prop := ∀ effect ∈ effects, effect.isServing = false

namespace Trace.Quiet

theorem nil : Quiet [] := nofun

theorem cons {effect : Effect} {effects : List Effect} (he : effect.isServing = false)
    (h : Quiet effects) : Quiet (effect :: effects) := by
  intro other hmem
  rcases List.mem_cons.mp hmem with rfl | hmem
  · exact he
  · exact h other hmem

theorem append {effects more : List Effect} (h : Quiet effects) (hm : Quiet more) :
    Quiet (effects ++ more) := by
  intro effect hmem
  rcases List.mem_append.mp hmem with hmem | hmem
  · exact h effect hmem
  · exact hm effect hmem

theorem responses {effects : List Effect} (h : Quiet effects) : responses effects = [] := by
  refine view_eq_nil fun effect hmem => ?_
  have := h effect hmem
  cases effect <;> first | rfl | cases this

theorem not_received {effects : List Effect} (h : Quiet effects) {arrival : Arrival} :
    .received arrival ∉ effects := by
  intro hmem
  cases h _ hmem

end Trace.Quiet

/-- Whether the effect belongs to calling the far end and is no use of the stream. -/
@[simp] def Effect.isAsking : Effect → Bool
  | called .. | queued _ | resolved .. => true
  | _ => false

/-- Calls are made, queued and resolved, and nothing else happens. -/
def Trace.Asking (effects : List Effect) : Prop := ∀ effect ∈ effects, effect.isAsking = true

namespace Trace.Asking

theorem append {effects more : List Effect} (h : Asking effects) (hm : Asking more) :
    Asking (effects ++ more) :=
  List.forall_mem_append.mpr ⟨h, hm⟩

theorem quiet {effects : List Effect} (h : Asking effects) : Quiet effects := by
  intro effect hmem
  have := h effect hmem
  cases effect <;> first | rfl | cases this

end Trace.Asking

namespace Connection

open Trace

variable {σ : Type} {c d : Connection σ}

/-! ### What peers ask for -/

theorem asking_call (c : Connection σ) (name : String) (args : Values) :
    Asking (c.call name args).2 := by
  cases hp : c.peer.prepare name args with
  | error error => simp [Asking, call_of_error hp]
  | ok prepared =>
      obtain ⟨procedure, checked⟩ := prepared
      cases ha : c.accepts with
      | false => simp [Asking, call_of_not_accepts hp ha]
      | true =>
          rw [call_of_accepts hp ha]
          cases procedure.oneway <;> simp [Asking]

theorem asking_close (c : Connection σ) : Asking c.close.2 := by
  unfold close
  split <;> simp [Asking, enqueue]

theorem asking_submit (c : Connection σ) (requests : List Request) :
    Asking (c.submit requests).2 :=
  submit_invariant (P := fun _ t => Asking t)
    (fun {d _} name args asking => asking.append (asking_call d name args))
    (fun {d _} asking => asking.append (asking_close d)) (List.forall_mem_nil _) requests

theorem asking_settle (c : Connection σ) (response : Envelope) :
    Asking (c.settle response).2 := by
  unfold settle
  split <;> simp [Asking]

/-! ### What is quiet -/

theorem quiet_finish (c : Connection σ) (error : Option ProtocolError) :
    Quiet (c.finish error).2 := by
  refine .cons rfl fun effect hmem => ?_
  obtain ⟨ticket, _, rfl⟩ := List.mem_map.mp hmem
  rfl

theorem quiet_call (c : Connection σ) (name : String) (args : Values) :
    Quiet (c.call name args).2 :=
  (asking_call c name args).quiet

theorem quiet_close (c : Connection σ) : Quiet c.close.2 := (asking_close c).quiet

theorem quiet_write (c : Connection σ) (call : Call) (id : CallbackId) :
    Quiet (c.write call id).2 := by
  simp only [write]
  split
  · exact .cons rfl .nil
  · exact quiet_finish _ _

theorem quiet_takeCommand (c : Connection σ) : Quiet c.takeCommand.2 := by
  by_cases hq : c.queue = []
  · simp only [takeCommand, hq]
    exact .nil
  · rcases takeCommand_cases hq with ⟨rest, _, h⟩ | ⟨call, id, d, _, h⟩ | ⟨_, h⟩
    · rw [h]
      exact quiet_finish _ _
    · rw [h]
      exact quiet_write d call id
    · rw [h]
      exact .nil

theorem quiet_settle (c : Connection σ) (response : Envelope) : Quiet (c.settle response).2 :=
  (asking_settle c response).quiet

theorem quiet_ran (c : Connection σ) (run : Run σ) : Quiet (c.ran run).2 :=
  (asking_submit { c with state := run.state } run.requests).quiet

/-! ### What serving a request can do -/

/-- A request makes the handler of a procedure run. -/
structure Runs (c : Connection σ) (request : Envelope) (procedure : Procedure) (args : Values)
    (run : Run σ) : Prop where
  find : (c.service.procedures c.side).find? request.procedure = some procedure
  conform : conform procedure.args request.data = .ok args
  handle : c.session.handle c.peer c.state procedure args = run

/-- The ways in which a request can be served. -/
inductive Serves (c : Connection σ) (request : Envelope) : Connection σ × List Effect → Prop
  | unknown (hfind : (c.service.procedures c.side).find? request.procedure = none) :
      Serves c request (c.fail (.unknownProcedure request.procedure))
  | invalid {procedure : Procedure} {error : PayloadError}
      (hfind : (c.service.procedures c.side).find? request.procedure = some procedure)
      (hconform : conform procedure.args request.data = .error error) :
      Serves c request (c.fail (.invalidData procedure.name error))
  | stuck {procedure : Procedure} {args : Values} {run : Run σ}
      (hruns : Runs c request procedure args run)
      (hresponse : responseTo request.callbackId procedure run.outcome = none) :
      Serves c request ({ (c.ran run).1 with phase := .stuck },
        .handled procedure.name args run.outcome :: (c.ran run).2)
  | oneway {procedure : Procedure} {args : Values} {run : Run σ} {response : Envelope}
      (hruns : Runs c request procedure args run)
      (hresponse : responseTo request.callbackId procedure run.outcome = some response)
      (honeway : procedure.oneway = true) :
      Serves c request
        ((c.ran run).1, .handled procedure.name args run.outcome :: (c.ran run).2)
  | answered {procedure : Procedure} {args : Values} {run : Run σ} {response : Envelope}
      (hruns : Runs c request procedure args run)
      (hresponse : responseTo request.callbackId procedure run.outcome = some response)
      (honeway : procedure.oneway = false)
      (hrefuse : c.outlet.refuse? response.toBytes = none) :
      Serves c request ((c.ran run).1,
        .handled procedure.name args run.outcome :: (c.ran run).2 ++ [.responded response])
  /-- The response cannot be written. -/
  | unanswered {procedure : Procedure} {args : Values} {run : Run σ} {response : Envelope}
      {fault : TransportFault} (hruns : Runs c request procedure args run)
      (hresponse : responseTo request.callbackId procedure run.outcome = some response)
      (honeway : procedure.oneway = false)
      (hrefuse : c.outlet.refuse? response.toBytes = some fault) :
      Serves c request (((c.ran run).1.fail (.transport fault)).1,
        .handled procedure.name args run.outcome :: (c.ran run).2 ++
          ((c.ran run).1.fail (.transport fault)).2)

theorem outlet_ran (c : Connection σ) (run : Run σ) : (c.ran run).1.outlet = c.outlet := by
  obtain ⟨_, _, h⟩ := ran_frame c run
  rw [h]

theorem phase_ran (c : Connection σ) (run : Run σ) : (c.ran run).1.phase = c.phase := by
  obtain ⟨_, _, h⟩ := ran_frame c run
  rw [h]

theorem serves (c : Connection σ) (request : Envelope) : Serves c request (c.serve request) := by
  unfold serve
  split
  next hfind => exact .unknown hfind
  next procedure hfind =>
    split
    next error hconform => exact .invalid hfind hconform
    next args hconform =>
      obtain ⟨run, hrun⟩ : ∃ run, c.session.handle c.peer c.state procedure args = run := ⟨_, rfl⟩
      have hruns : Runs c request procedure args run := ⟨hfind, hconform, hrun⟩
      cases hr : responseTo request.callbackId procedure run.outcome with
      | none =>
          rw [runHandler_of_stuck hrun hr]
          exact .stuck hruns hr
      | some response =>
          cases ho : procedure.oneway with
          | true =>
              rw [runHandler_of_oneway hrun hr ho]
              exact .oneway hruns hr ho
          | false =>
              rw [runHandler_of_twoWay hrun hr ho]
              simp only [respond, outlet_ran]
              cases hf : c.outlet.refuse? response.toBytes with
              | none => exact .answered hruns hr ho hf
              | some fault => exact .unanswered hruns hr ho hf

/-- To serve a request nothing more is read. -/
theorem not_received_serve (c : Connection σ) (request : Envelope) {arrival : Arrival} :
    .received arrival ∉ (c.serve request).2 := by
  have handled : ∀ {run : Run σ} {procedure : Procedure} {args : Values} {more : List Effect},
      .received arrival ∉ more →
      .received arrival ∉ .handled procedure.name args run.outcome :: (c.ran run).2 ++ more := by
    intro run procedure args more hmore hmem
    rcases List.mem_append.mp hmem with hmem | hmem
    · rcases List.mem_cons.mp hmem with heq | hmem
      · cases heq
      · exact (quiet_ran _ _).not_received hmem
    · exact hmore hmem
  have served := serves c request
  generalize c.serve request = result at served
  cases served with
  | unknown _ => exact (quiet_finish _ _).not_received
  | invalid _ _ => exact (quiet_finish _ _).not_received
  | stuck _ _ => exact fun hmem => handled List.not_mem_nil (List.mem_append_left _ hmem)
  | oneway _ _ _ => exact fun hmem => handled List.not_mem_nil (List.mem_append_left _ hmem)
  | answered _ _ _ _ => exact handled (by simp)
  | unanswered _ _ _ _ => exact handled (quiet_finish _ _).not_received

theorem not_received_arrive (c : Connection σ) (arrival : Arrival) {other : Arrival} :
    .received other ∉ (c.arrive arrival).2 := by
  unfold arrive
  split
  · exact (quiet_finish _ _).not_received
  · exact (quiet_finish _ _).not_received
  · split
    · exact (quiet_finish _ _).not_received
    · split
      · exact not_received_serve _ _
      · exact (quiet_settle _ _).not_received

end Connection

end DuplexRpc
