import DuplexRpc.Connection

/-!
# Traces

A trace is the list of effects of a run, and says everything that happened at an end
of a connection. A statement about a run looks at its trace through one of the views
below: the calls that were made, queued, written and resolved, and the responses that
were written.
-/

namespace DuplexRpc

/-- An element of a list of two parts is in one of the parts. -/
theorem split_append {α : Type} {t u before after : List α} {x : α}
    (h : t ++ u = before ++ x :: after) :
    (∃ more, t = before ++ x :: more) ∨ ∃ more, before = t ++ more ∧ u = more ++ x :: after := by
  rcases List.append_eq_append_iff.mp h with ⟨more, rfl, hmore⟩ | ⟨more, rfl, hmore⟩
  · exact .inr ⟨more, rfl, hmore⟩
  · cases more with
    | nil => exact .inr ⟨[], by simp, by simpa using hmore.symm⟩
    | cons y more =>
        obtain ⟨rfl, _⟩ := List.cons.inj hmore
        exact .inl ⟨more, rfl⟩

namespace Effect

@[simp] def called? : Effect → Option Nat
  | called ticket _ _ => some ticket
  | _ => none

@[simp] def queued? : Effect → Option Call
  | queued (.call call) => some call
  | _ => none

@[simp] def requested? : Effect → Option (Nat × Envelope)
  | requested ticket request => some (ticket, request)
  | _ => none

@[simp] def resolved? : Effect → Option (Nat × Except CallError Values)
  | resolved ticket result => some (ticket, result)
  | _ => none

@[simp] def responded? : Effect → Option Envelope
  | responded response => some response
  | _ => none

@[simp] def received? : Effect → Option Arrival
  | received arrival => some arrival
  | _ => none

@[simp] def envelope? : Effect → Option Envelope
  | responded envelope | requested _ envelope => some envelope
  | _ => none

/-- Whether the effect belongs to serving the far end, as opposed to calling it. -/
@[simp] def isServing : Effect → Bool
  | received _ | handled .. | responded _ => true
  | _ => false

end Effect

namespace Trace

/-- What a trace shows of one kind of effect. -/
def view {α : Type} (kind : Effect → Option α) (t : List Effect) : List α := t.filterMap kind

section

variable {α : Type} (kind : Effect → Option α)

@[simp] theorem view_nil : view kind [] = [] := rfl

@[simp] theorem view_cons (effect : Effect) (t : List Effect) :
    view kind (effect :: t) = (kind effect).toList ++ view kind t := by
  cases h : kind effect <;> simp [view, h]

@[simp] theorem view_append (t u : List Effect) : view kind (t ++ u) = view kind t ++ view kind u :=
  List.filterMap_append

theorem map_view {β : Type} (f : α → β) (t : List Effect) :
    (view kind t).map f = view (fun effect => (kind effect).map f) t :=
  List.map_filterMap

theorem filter_view (p : α → Bool) (t : List Effect) :
    (view kind t).filter p = view (fun effect => (kind effect).filter p) t :=
  List.filter_filterMap

variable {kind} {x : α} {t u : List Effect}

theorem view_congr {other : Effect → Option α} (h : ∀ effect ∈ t, kind effect = other effect) :
    view kind t = view other t := by
  induction t with
  | nil => rfl
  | cons effect t ih =>
      rw [view_cons, view_cons, h effect List.mem_cons_self,
        ih fun later hmem => h later (List.mem_cons_of_mem _ hmem)]

theorem mem_view : x ∈ view kind t ↔ ∃ effect ∈ t, kind effect = some x :=
  List.mem_filterMap

theorem mem_view_append_left (h : x ∈ view kind t) : x ∈ view kind (t ++ u) := by
  rw [view_append]
  exact List.mem_append_left _ h

theorem view_eq_nil (h : ∀ effect ∈ t, kind effect = none) : view kind t = [] :=
  List.filterMap_eq_nil_iff.mpr h

/-- An effect is known by what no other effect shows. -/
theorem eq_of_view_nodup (hnodup : (view kind t).Nodup) {e f : Effect} (he : e ∈ t) (hf : f ∈ t)
    (hex : kind e = some x) (hfx : kind f = some x) : e = f := by
  induction t with
  | nil => exact absurd he List.not_mem_nil
  | cons g t ih =>
      rw [view_cons] at hnodup
      have twice : ∀ {effect}, effect ∈ t → kind effect = some x → kind g = some x → False := by
        intro effect hmem hx hg
        rw [hg] at hnodup
        exact (List.nodup_cons.mp hnodup).1 (mem_view.mpr ⟨effect, hmem, hx⟩)
      rcases List.mem_cons.mp he with rfl | earlier
      · rcases List.mem_cons.mp hf with rfl | later
        · rfl
        · exact (twice later hfx hex).elim
      · rcases List.mem_cons.mp hf with rfl | later
        · exact (twice earlier hex hfx).elim
        · exact ih (List.nodup_append.mp hnodup).2.1 earlier later

/-- A key that is shown once has one value. -/
theorem eq_of_keys_nodup {β γ : Type} {kind : Effect → Option (β × γ)}
    (hnodup : ((view kind t).map (·.1)).Nodup) {key : β} {value other : γ}
    (hv : (key, value) ∈ view kind t) (ho : (key, other) ∈ view kind t) : value = other := by
  rw [map_view] at hnodup
  obtain ⟨e, he, hvalue⟩ := mem_view.mp hv
  obtain ⟨f, hf, hother⟩ := mem_view.mp ho
  have same := eq_of_view_nodup hnodup he hf (by rw [hvalue]; rfl) (by rw [hother]; rfl)
  rw [← same, hvalue] at hother
  exact (Prod.mk.inj (Option.some.inj hother)).2

end

abbrev calls : List Effect → List Nat := view Effect.called?

/-- The calls that passed their checks and were queued. -/
abbrev queued : List Effect → List Call := view Effect.queued?

/-- The requests that were written, with the tickets of their calls. -/
abbrev requests : List Effect → List (Nat × Envelope) := view Effect.requested?

abbrev results : List Effect → List (Nat × Except CallError Values) := view Effect.resolved?

abbrev responses : List Effect → List Envelope := view Effect.responded?

abbrev envelopes : List Effect → List Envelope := view Effect.envelope?

abbrev arrivals : List Effect → List Arrival := view Effect.received?

theorem arrivals_eq_nil {t : List Effect} (h : ∀ arrival, .received arrival ∉ t) :
    arrivals t = [] := by
  refine view_eq_nil fun effect hmem => ?_
  cases effect with
  | received arrival => exact absurd hmem (h arrival)
  | _ => rfl

/-- Of what happens when something is read, only that is read which is read first. -/
theorem arrivals_received {t : List Effect} (h : ∀ arrival, .received arrival ∉ t)
    (arrival : Arrival) : arrivals (.received arrival :: t) = [arrival] := by
  have unread := arrivals_eq_nil h
  rw [arrivals] at unread ⊢
  rw [view_cons, unread]
  rfl

end Trace

@[simp] def Event.arrival? : Event → Option Arrival
  | arrival a => some a
  | _ => none

namespace Command

@[simp] def call? : Command → Option Call
  | .call c => some c
  | .close => none

/-- The ticket of a command that is a two-way call. -/
@[simp] def awaited? : Command → Option Nat
  | .call c => if c.procedure.oneway then none else some c.ticket
  | .close => none

end Command

end DuplexRpc
