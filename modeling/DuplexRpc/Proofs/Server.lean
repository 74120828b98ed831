import DuplexRpc.Proofs.Link
import DuplexRpc.Server
import Mathlib.Data.List.Basic
import Mathlib.Data.List.Induction

/-!
# Connections side by side

The events of a server are an interleaving of what happens on its connections. A connection
sees nothing of the others: it lives as a link of its own on which the same happens, from
the same first state of its session. What becomes of a connection therefore makes no
difference to any other one, and none to whether further connections are accepted.
-/

namespace DuplexRpc.Server

variable {σ : Type}

/-! ### One connection of many -/

def Event.on? (index : Nat) : Event σ → Option Link.Event
  | link on event => if on = index then some event else none
  | accept _ | failed _ => none

def eventsOn (index : Nat) (events : List (Event σ)) : List Link.Event :=
  events.filterMap (Event.on? index)

def effectsOn (index : Nat) (effects : List (Nat × Effect)) : List Effect :=
  effects.filterMap fun (on, effect) => if on = index then some effect else none

/-- How the listener fails, if it does. -/
def failure? (events : List (Event σ)) : Option String :=
  events.findSome? fun
    | .failed reason => some reason
    | .accept _ | .link .. => none

/-- How many connections ask to be accepted. -/
def arrivals (events : List (Event σ)) : Nat :=
  events.countP fun
    | .accept _ => true
    | .failed _ | .link .. => false

/-- In the course of some events a connection is accepted: it gets its place behind the connections
before it, a state in which its session begins, and the events that happen on it from then on. -/
inductive Admits : List (Event σ) → Nat → σ → List Link.Event → Prop
  | accepted {before after : List (Event σ)} {state : σ} (listening : failure? before = none) :
      Admits (before ++ .accept state :: after) (arrivals before) state
        (eventsOn (arrivals before) after)

theorem eventsOn_append (index : Nat) (events later : List (Event σ)) :
    eventsOn index (events ++ later) = eventsOn index events ++ eventsOn index later :=
  List.filterMap_append

@[simp] theorem effectsOn_append (index : Nat) (effects later : List (Nat × Effect)) :
    effectsOn index (effects ++ later) = effectsOn index effects ++ effectsOn index later :=
  List.filterMap_append

@[simp] theorem effectsOn_map_self (index : Nat) (effects : List Effect) :
    effectsOn index (effects.map (index, ·)) = effects := by
  rw [effectsOn, List.filterMap_map]
  exact (List.filterMap_congr fun _ _ => if_pos rfl).trans List.filterMap_some

theorem effectsOn_map_of_ne {index on : Nat} (h : on ≠ index) (effects : List Effect) :
    effectsOn index (effects.map (on, ·)) = [] := by
  rw [effectsOn, List.filterMap_map]
  exact List.filterMap_eq_nil_iff.mpr fun _ _ => if_neg h

theorem effectsOn_eq_nil {index : Nat} {effects : List (Nat × Effect)}
    (h : ∀ effect ∈ effects, effect.1 ≠ index) : effectsOn index effects = [] := by
  apply List.filterMap_eq_nil_iff.mpr
  intro effect member
  exact if_neg (h effect member)

/-! ### One event -/

theorem setup_step (s : Server σ) (event : Event σ) : (s.step event).1.setup = s.setup := by
  cases event with
  | accept state =>
      rw [step, accept]
      split <;> rfl
  | failed reason => rfl
  | link on event =>
      rw [step]
      split <;> rfl

theorem failure_step (s : Server σ) (event : Event σ) :
    (s.step event).1.failure = s.failure.or (failure? [event]) := by
  cases event with
  | accept state =>
      rw [step, accept]
      split <;> exact (Option.or_none).symm
  | failed reason => rfl
  | link on event =>
      rw [step]
      split <;> exact (Option.or_none).symm

/-- Only an accepted connection is added, and none is ever taken away. -/
theorem length_step (s : Server σ) (event : Event σ) :
    (s.step event).1.links.length =
      s.links.length + if s.failure.isNone then arrivals [event] else 0 := by
  cases event with
  | accept state =>
      rw [step, accept]
      split
      next failed => simp [Option.isNone_eq_false_iff.mpr failed]
      next listening =>
        have listening : s.failure.isNone = true := by simpa using listening
        simp [listening, arrivals]
  | failed reason => simp [step, fail, arrivals]
  | link on event =>
      rw [step]
      split <;> simp [arrivals]

/-- Effects happen on connections that have been accepted. -/
theorem lt_of_mem_step {s : Server σ} {event : Event σ} {effect : Nat × Effect}
    (h : effect ∈ (s.step event).2) : effect.1 < s.links.length := by
  cases event with
  | accept state => cases h
  | failed reason => cases h
  | link on event =>
      rw [step] at h
      split at h
      next => cases h
      next link found =>
        obtain ⟨_, _, rfl⟩ := List.mem_map.mp h
        exact (List.getElem?_eq_some_iff.mp found).1

/-- An event is to a connection what it is to a link of its own, and nothing if it happens
elsewhere. -/
theorem step_on {s : Server σ} {index : Nat} {link : Link σ} (h : s.links[index]? = some link)
    (event : Event σ) :
    (s.step event).1.links[index]? = some (link.run (eventsOn index [event])).1 ∧
      effectsOn index (s.step event).2 = (link.run (eventsOn index [event])).2 := by
  have inside := (List.getElem?_eq_some_iff.mp h).1
  cases event with
  | accept state =>
      refine ⟨?_, rfl⟩
      rw [step, accept]
      split
      next => exact h
      next => rw [List.getElem?_append_left inside, h]; rfl
  | failed reason => exact ⟨h, rfl⟩
  | link on event =>
      by_cases here : on = index
      · subst here
        have own : eventsOn on [(.link on event : Event σ)] = [event] := by
          simp [eventsOn, Event.on?]
        simp only [own, step, h, effectsOn_map_self]
        simp [inside, Link.run]
      · have other : eventsOn index [(.link on event : Event σ)] = [] := by
          simp [eventsOn, Event.on?, here]
        rw [other, step]
        split
        next => exact ⟨h, rfl⟩
        next => exact ⟨by rw [List.getElem?_set_ne here, h]; rfl, effectsOn_map_of_ne here _⟩

/-! ### Many events -/

theorem run_append (s : Server σ) (events later : List (Event σ)) :
    s.run (events ++ later) = (((s.run events).1.run later).1,
      (s.run events).2 ++ ((s.run events).1.run later).2) :=
  runSteps_append step s events later

theorem run_cons (s : Server σ) (event : Event σ) (rest : List (Event σ)) :
    s.run (event :: rest) = (((s.step event).1.run rest).1,
      (s.step event).2 ++ ((s.step event).1.run rest).2) := rfl

theorem run_concat (s : Server σ) (events : List (Event σ)) (event : Event σ) :
    (s.run (events ++ [event])).1 = ((s.run events).1.step event).1 := by
  rw [run_append]
  rfl

theorem setup_run (s : Server σ) (events : List (Event σ)) : (s.run events).1.setup = s.setup := by
  induction events generalizing s with
  | nil => rfl
  | cons event rest ih => rw [run_cons, ih, setup_step]

theorem failure?_cons (event : Event σ) (rest : List (Event σ)) :
    failure? (event :: rest) = (failure? [event]).or (failure? rest) := by
  cases event <;> rfl

theorem failure_run (s : Server σ) (events : List (Event σ)) :
    (s.run events).1.failure = s.failure.or (failure? events) := by
  induction events generalizing s with
  | nil => exact Option.or_none.symm
  | cons event rest ih => rw [run_cons, ih, failure_step, Option.or_assoc, ← failure?_cons]

theorem length_run {s : Server σ} {events : List (Event σ)} (open_ : s.failure = none)
    (listening : failure? events = none) :
    (s.run events).1.links.length = s.links.length + arrivals events := by
  induction events generalizing s with
  | nil => rfl
  | cons event rest ih =>
      rw [failure?_cons, Option.or_eq_none_iff] at listening
      have next : (s.step event).1.failure = none := by
        rw [failure_step, open_, listening.1, Option.or_none]
      have counted : arrivals (event :: rest) = arrivals [event] + arrivals rest :=
        (List.countP_append : (([event] ++ rest).countP _) = _)
      rw [run_cons, ih next listening.2, length_step, open_, counted, Nat.add_assoc]
      rfl

/-- No connection is ever taken away. -/
theorem length_le_run (s : Server σ) (events : List (Event σ)) :
    s.links.length ≤ (s.run events).1.links.length := by
  induction events generalizing s with
  | nil => exact Nat.le_refl _
  | cons event rest ih =>
      have grown := length_step s event
      have later := ih (s.step event).1
      rw [run_cons]
      dsimp only
      omega

theorem lt_of_mem_run {s : Server σ} {events : List (Event σ)} {effect : Nat × Effect}
    (h : effect ∈ (s.run events).2) : effect.1 < (s.run events).1.links.length := by
  induction events generalizing s with
  | nil => cases h
  | cons event rest ih =>
      rw [run_cons] at h ⊢
      rcases List.mem_append.mp h with now | later
      · have inside := lt_of_mem_step now
        have grown := length_step s event
        have kept := length_le_run (s.step event).1 rest
        dsimp only
        omega
      · exact ih later

/-- A connection that is there lives on alone. -/
theorem run_on {s : Server σ} {index : Nat} {link : Link σ} (h : s.links[index]? = some link)
    (events : List (Event σ)) :
    (s.run events).1.links[index]? = some (link.run (eventsOn index events)).1 ∧
      effectsOn index (s.run events).2 = (link.run (eventsOn index events)).2 := by
  induction events generalizing s link with
  | nil => exact ⟨h, rfl⟩
  | cons event rest ih =>
      obtain ⟨there, first⟩ := step_on h event
      obtain ⟨found, later⟩ := ih there
      have own : eventsOn index (event :: rest) = eventsOn index [event] ++ eventsOn index rest :=
        eventsOn_append index [event] rest
      have joined : link.run (eventsOn index [event] ++ eventsOn index rest) = _ :=
        runSteps_append Link.step link _ _
      rw [run_cons, effectsOn_append, first, later, found, own, joined]
      exact ⟨rfl, rfl⟩

/-! ### Acceptance -/

theorem Admits.append {events : List (Event σ)} {index : Nat} {state : σ} {own : List Link.Event}
    (h : Admits events index state own) (later : List (Event σ)) :
    Admits (events ++ later) index state (own ++ eventsOn index later) := by
  obtain ⟨listening⟩ := h
  rw [List.append_assoc, List.cons_append, ← eventsOn_append]
  exact .accepted listening

theorem failure_start (setup : Setup σ) (events : List (Event σ)) :
    ((start setup).run events).1.failure = failure? events := by
  rw [failure_run]
  exact Option.none_or

theorem length_start (setup : Setup σ) {events : List (Event σ)}
    (listening : failure? events = none) :
    ((start setup).run events).1.links.length = arrivals events := by
  rw [length_run rfl listening]
  exact Nat.zero_add _

/-- As long as the listener has not failed, the next connection is accepted and begins afresh. -/
theorem accept_start (setup : Setup σ) {events : List (Event σ)}
    (listening : failure? events = none) (state : σ) :
    (((start setup).run events).1.accept state).links =
      ((start setup).run events).1.links ++
        [(Link.start { setup with side := .server, state }).1] := by
  have still : ¬ ((start setup).run events).1.failure.isSome := by
    rw [failure_start, listening]
    exact Bool.false_ne_true
  rw [accept, if_neg still, setup_run]
  rfl

/-- An accepted connection lives as a link alone. -/
theorem Admits.life {events : List (Event σ)} {index : Nat} {state : σ} {own : List Link.Event}
    (h : Admits events index state own) (setup : Setup σ) :
    ∃ link, ((start setup).run events).1.links[index]? = some link ∧
      Link.life { setup with side := .server, state } own =
        (link, effectsOn index ((start setup).run events).2) := by
  obtain ⟨listening⟩ := h
  rename_i before after
  have place := length_start setup listening
  -- the connection begins at the end of the list of those before it
  have begun : (((start setup).run before).1.step (.accept state)).1.links[arrivals before]? =
      some (Link.start { setup with side := .server, state }).1 := by
    rw [step, accept_start setup listening, ← place]
    exact List.getElem?_concat_length
  obtain ⟨found, later⟩ := run_on begun after
  have unheard : effectsOn (arrivals before) ((start setup).run before).2 = [] := by
    apply effectsOn_eq_nil
    intro effect member
    have inside := lt_of_mem_run member
    omega
  rw [run_append, run_cons, effectsOn_append, effectsOn_append, unheard, later]
  exact ⟨_, found, rfl⟩

/-- Every connection has been accepted in the course of the events. -/
theorem exists_admits {setup : Setup σ} {events : List (Event σ)} {index : Nat}
    (inside : index < ((start setup).run events).1.links.length) :
    ∃ state own, Admits events index state own := by
  induction events using List.reverseRecOn with
  | nil => exact absurd inside (Nat.not_lt_zero index)
  | append_singleton events event ih =>
      by_cases earlier : index < ((start setup).run events).1.links.length
      · obtain ⟨state, own, admits⟩ := ih earlier
        exact ⟨state, _, admits.append [event]⟩
      rw [run_concat, length_step, failure_start] at inside
      split at inside
      next listening =>
        have listening := Option.isNone_iff_eq_none.mp listening
        rw [length_start setup listening] at inside earlier
        cases event with
        | accept state =>
            have one : arrivals [Event.accept state] = 1 := rfl
            obtain rfl : index = arrivals events := by omega
            exact ⟨state, _, .accepted listening⟩
        | failed reason => exact absurd inside earlier
        | link on event => exact absurd inside earlier
      next => exact absurd inside earlier

/-- What a server makes of events that happen on its connections in any order. -/
structure SideBySide (setup : Setup σ) (events : List (Event σ)) : Prop where
  /-- A connection lives as a link alone does: it has the same effects — handlers that run, texts
  that are written, results of calls, and how it ends — and comes to the same state. -/
  alone : ∀ {index state own}, Admits events index state own →
    ∃ link, ((start setup).run events).1.links[index]? = some link ∧
      Link.life { setup with side := .server, state } own =
        (link, effectsOn index ((start setup).run events).2)
  /-- So its endpoint lives as one does that is given its input outright. -/
  served : ∀ {index state own}, Admits events index state own →
    ∃ inputs link, Link.Delivered own inputs ∧
      ((start setup).run events).1.links[index]? = some link ∧
        Endpoint.life { setup with side := .server, state } inputs =
          (link.endpoint, effectsOn index ((start setup).run events).2)
  /-- There are no other connections, and nothing happens elsewhere. -/
  admitted : ∀ {index}, index < ((start setup).run events).1.links.length →
    ∃ state own, Admits events index state own
  effects : ∀ effect ∈ ((start setup).run events).2, ∃ state own, Admits events effect.1 state own
  /-- Nothing that happens on other connections makes a difference. -/
  unaffected : ∀ {others index place state own}, Admits events index state own →
    Admits others place state own →
      ((start setup).run events).1.links[index]? = ((start setup).run others).1.links[place]? ∧
        effectsOn index ((start setup).run events).2 = effectsOn place ((start setup).run others).2
  /-- Whatever has become of the connections, a further one is accepted unless the listener itself
  has failed. -/
  accepts : failure? events = none → ∀ state,
    Admits (events ++ [.accept state]) ((start setup).run events).1.links.length state [] ∧
      ((start setup).run (events ++ [.accept state])).1.links =
        ((start setup).run events).1.links ++
          [(Link.start { setup with side := .server, state }).1]

/-- The connections of a server do not influence each other. -/
theorem connections_are_independent (setup : Setup σ) (events : List (Event σ)) :
    SideBySide setup events where
  alone admits := admits.life setup
  served := by
    intro index state own admits
    obtain ⟨link, found, lives⟩ := admits.life setup
    obtain ⟨inputs, delivered, same⟩ :=
      Link.life_delivered { setup with side := .server, state } own
    rw [lives] at same
    exact ⟨inputs, link, delivered, found, same⟩
  admitted := exists_admits
  effects effect member := exists_admits (lt_of_mem_run member)
  unaffected := by
    intro others index place state own here there
    obtain ⟨link, found, lives⟩ := here.life setup
    obtain ⟨other, also, likewise⟩ := there.life setup
    obtain ⟨rfl, same⟩ := Prod.mk.inj (lives.symm.trans likewise)
    exact ⟨found.trans also.symm, same⟩
  accepts := by
    intro listening state
    refine ⟨?_, ?_⟩
    · rw [length_start setup listening]
      exact (Admits.accepted listening : Admits (events ++ .accept state :: []) _ _ _)
    · rw [run_concat]
      exact accept_start setup listening state

end DuplexRpc.Server
