import DuplexRpc.Link
import DuplexRpc.Proofs.Connection.Calls
import DuplexRpc.Proofs.Endpoint.Stages
import DuplexRpc.Proofs.Framing

/-!
# What a link delivers

Whatever happens on a link, its endpoint lives as an endpoint does that is given its input
outright. The frames among that input are cut from the bytes that the far end has
written. What is left behind them when the stream has ended decides how its end is read:
as closed if that is nothing or a length alone, and else as a frame that is incomplete.
-/

namespace DuplexRpc

def Event.frame? : Event → Option Bytes
  | arrival (.frame payload) => some payload
  | _ => none

def Event.frames (inputs : List Event) : List Bytes := inputs.filterMap frame?

/-- Whether the end of the stream is read, be it in the middle of a frame or not. -/
def Event.isEnd : Event → Bool
  | arrival .closed | arrival (.fault .bytesRemaining) => true
  | _ => false

namespace Endpoint

variable {σ : Type} {setup : Setup σ}

theorem life_append (setup : Setup σ) (events later : List Event) :
    life setup (events ++ later) =
      (((life setup events).1.run later).1,
        (life setup events).2 ++ ((life setup events).1.run later).2) := by
  simp only [life, run_append, List.append_assoc]

/-- An endpoint that is done stays so. -/
theorem isOver_step {e : Endpoint σ} (h : e.isOver = true) (event : Event) :
    (e.step event).1.isOver = true := by
  cases e with
  | greeting setup outlet => cases h
  | connected c => exact Connection.isOver_step h event
  | refused error => rfl

/-- Nothing is to be seen at an endpoint when the far end goes. -/
theorem step_farGone (e : Endpoint σ) : (e.step .farGone).2 = [] := by
  cases e <;> rfl

/-- An endpoint that reads the end of the stream is done. -/
theorem isOver_step_end {e : Endpoint σ} (h : e.reads = true) {arrival : Arrival}
    (hend : (Event.arrival arrival).isEnd = true) :
    (e.step (.arrival arrival)).1.isOver = true := by
  cases e with
  | greeting setup outlet => cases arrival <;> first | rfl | cases hend
  | connected c =>
      have serving : c.phase = .serving := by simpa [reads] using h
      simp only [step, Connection.step, if_pos serving]
      cases arrival <;> first | rfl | cases hend
  | refused error => cases h

theorem not_isOver_of_reads {e : Endpoint σ} (h : e.reads = true) : e.isOver = false := by
  cases e with
  | greeting setup outlet => rfl
  | connected c =>
      have serving : c.phase = .serving := by simpa [reads] using h
      simp [isOver, Connection.isOver, serving]
  | refused error => cases h

end Endpoint

namespace Link

variable {σ : Type} {setup : Setup σ}

def Event.isLast : Event → Bool
  | shut | gone => true
  | bytes _ | turn _ => false

def wrote : List Event → Bytes
  | [] => []
  | .bytes chunk :: rest => chunk ++ wrote rest
  | .turn _ :: rest => wrote rest
  | .shut :: _ | .gone :: _ => []

/-- A link from its beginning, after some events, and all that has happened at its endpoint. -/
def life (setup : Setup σ) (events : List Event) : Link σ × List Effect :=
  let (l, begun) := start setup
  let (l, later) := l.run events
  (l, begun ++ later)

/-- How the input of an endpoint comes out of what happens on its link. -/
structure Delivered (events : List Event) (inputs : List DuplexRpc.Event) : Prop where
  /-- The frames that are read are the first that the far end has written. -/
  frames : (Event.frames inputs).flatMap Framing.encode <+: wrote events
  /-- When the end is read, the far end writes no more. What is left of what it has written, behind
  the frames that have been read, tells whether the stream counts as closed. -/
  ended : ∀ input ∈ inputs, input.isEnd = true → (∃ event ∈ events, event.isLast) ∧
    ∃ rest, wrote events = (Event.frames inputs).flatMap Framing.encode ++ rest ∧
      (input = .arrival .closed ↔ Framing.IsSpent rest)
  /-- The endpoint learns that the far end has gone when it goes. -/
  gone : .farGone ∈ inputs ↔ .gone ∈ events

theorem wrote_append (events later : List Event) :
    wrote (events ++ later) =
      if events.any (·.isLast) then wrote events else wrote events ++ wrote later := by
  induction events with
  | nil => simp [wrote]
  | cons event rest ih =>
      cases event with
      | bytes chunk =>
          have later : Event.isLast (.bytes chunk) = false := rfl
          simp only [List.cons_append, wrote, ih, List.any_cons, later, Bool.false_or]
          split
          · rfl
          · rw [List.append_assoc]
      | turn turn => simpa [wrote, Event.isLast] using ih
      | shut => simp [wrote, Event.isLast]
      | gone => simp [wrote, Event.isLast]

theorem wrote_append_of_isLast {events : List Event} (h : ∃ event ∈ events, event.isLast)
    (later : List Event) : wrote (events ++ later) = wrote events := by
  rw [wrote_append, if_pos (List.any_eq_true.mpr h)]

theorem wrote_le_append (events later : List Event) : wrote events <+: wrote (events ++ later) := by
  rw [wrote_append]
  split
  · exact List.prefix_rfl
  · exact List.prefix_append _ _

/-- What is not read does not take anything from what has been written. -/
theorem frames_append_of_not_frame (inputs : List DuplexRpc.Event) {input : DuplexRpc.Event}
    (h : input.frame? = none) : Event.frames (inputs ++ [input]) = Event.frames inputs := by
  simp [Event.frames, h]

theorem frames_append_frame (inputs : List DuplexRpc.Event) (payload : Bytes) :
    Event.frames (inputs ++ [.arrival (.frame payload)]) = Event.frames inputs ++ [payload] := by
  simp [Event.frames, DuplexRpc.Event.frame?]

/-- What a link keeps: its endpoint has had the input, and as long as it is not done, the bytes that
it has not read are there. -/
structure Stands (setup : Setup σ) (events : List Event) (l : Link σ) (t : List Effect)
    (inputs : List DuplexRpc.Event) : Prop where
  life : Endpoint.life setup inputs = (l.endpoint, t)
  farWrites : l.farWrites = !events.any (·.isLast)
  left : l.endpoint.isOver = false →
    (Event.frames inputs).flatMap Framing.encode ++ l.inbound.bytes = wrote events
  delivered : Delivered events inputs
  finished : ∀ input ∈ inputs, input.isEnd = true → l.endpoint.isOver = true

section

variable {events : List Event} {inputs : List DuplexRpc.Event} {l : Link σ} {t : List Effect}

/-- More can happen on a link that its endpoint takes no notice of. -/
theorem Delivered.later (h : Delivered events inputs) {event : Event} (hgone : event ≠ .gone) :
    Delivered (events ++ [event]) inputs where
  frames := h.frames.trans (wrote_le_append events [event])
  ended input hmem hend := by
    obtain ⟨⟨last, hlast, hisLast⟩, hrest⟩ := h.ended input hmem hend
    refine ⟨⟨last, List.mem_append_left _ hlast, hisLast⟩, ?_⟩
    rwa [wrote_append_of_isLast ⟨last, hlast, hisLast⟩]
  gone := by
    rw [h.gone, List.mem_append, List.mem_singleton]
    exact ⟨.inl, fun hmem => hmem.resolve_right hgone.symm⟩

/-- The endpoint takes a step with its next input. -/
theorem Stands.life_append (h : Stands setup events l t inputs) (input : DuplexRpc.Event) :
    Endpoint.life setup (inputs ++ [input]) =
      ((l.endpoint.step input).1, t ++ (l.endpoint.step input).2) := by
  rw [Endpoint.life_append, h.life, Endpoint.run_cons]
  simp [Endpoint.run]

theorem Stands.start (setup : Setup σ) :
    Stands setup [] (Link.start setup).1 (Link.start setup).2 [] where
  life := by simp [Endpoint.life, Link.start, Endpoint.run]
  farWrites := rfl
  left _ := rfl
  delivered := ⟨List.prefix_rfl, nofun, by simp⟩
  finished := nofun

/-- The far end has written more. -/
theorem Stands.bytes (h : Stands setup events l t inputs) (chunk : Bytes) :
    Stands setup (events ++ [.bytes chunk])
      (if l.isWritable then { l with inbound := l.inbound.push chunk } else l) t inputs := by
  have farWrites : (!(events ++ [Event.bytes chunk]).any (·.isLast)) =
      !events.any (·.isLast) := by
    simp [Event.isLast]
  have delivered := h.delivered.later (show Event.bytes chunk ≠ .gone from nofun)
  split
  next hwritable =>
    refine ⟨h.life, h.farWrites.trans farWrites.symm, fun hover => ?_, delivered, h.finished⟩
    simp only [isWritable, Bool.and_eq_true, h.farWrites, Bool.not_eq_true'] at hwritable
    rw [wrote_append, hwritable.1, Framing.bytes_push, ← List.append_assoc, h.left hover]
    simp [wrote]
  next hwritable =>
    refine ⟨h.life, h.farWrites.trans farWrites.symm, fun hover => ?_, delivered, h.finished⟩
    simp only [isWritable, hover, h.farWrites, Bool.not_false, Bool.and_true, Bool.not_eq_true',
      Bool.not_eq_false] at hwritable
    rw [wrote_append, if_pos hwritable]
    exact h.left hover

/-- The end of the stream has been read before if it is not read now. -/
theorem mem_of_isEnd {input other : DuplexRpc.Event} (hend : input.isEnd = false)
    (hmem : other ∈ inputs ++ [input]) (hother : other.isEnd = true) : other ∈ inputs := by
  refine (List.mem_append.mp hmem).resolve_right fun hmem => ?_
  rw [List.mem_singleton.mp hmem, hend] at hother
  cases hother

/-- Input that is no frame and not the end of the stream adds nothing to what has been read. -/
theorem Delivered.snoc (h : Delivered events inputs) {event : Event} {input : DuplexRpc.Event}
    (hframe : input.frame? = none) (hend : input.isEnd = false)
    (hgone : input = .farGone ↔ event = .gone) :
    Delivered (events ++ [event]) (inputs ++ [input]) where
  frames := by
    rw [frames_append_of_not_frame inputs hframe]
    exact h.frames.trans (wrote_le_append events [event])
  ended other hmem hother := by
    have hmem := mem_of_isEnd hend hmem hother
    obtain ⟨⟨last, hlast, hisLast⟩, hrest⟩ := h.ended other hmem hother
    refine ⟨⟨last, List.mem_append_left _ hlast, hisLast⟩, ?_⟩
    rwa [wrote_append_of_isLast ⟨last, hlast, hisLast⟩, frames_append_of_not_frame inputs hframe]
  gone := by
    simp only [List.mem_append, List.mem_singleton, h.gone, eq_comm (a := Event.gone),
      eq_comm (a := DuplexRpc.Event.farGone), hgone]

/-- The endpoint takes a step in which it does not read. -/
theorem Stands.act (h : Stands setup events l t inputs) {event : Event} {input : DuplexRpc.Event}
    (hframe : input.frame? = none) (hend : input.isEnd = false)
    (hgone : input = .farGone ↔ event = .gone) (hchunk : wrote [event] = [])
    {farWrites : Bool} (hwrites : farWrites = (l.farWrites && !event.isLast)) (farReads : Bool) :
    Stands setup (events ++ [event])
      { l with endpoint := (l.endpoint.step input).1, farWrites, farReads }
      (t ++ (l.endpoint.step input).2) (inputs ++ [input]) where
  life := h.life_append input
  farWrites := by simp [hwrites, h.farWrites, Bool.not_or]
  left hover := by
    have notOver : l.endpoint.isOver = false := by
      cases hbefore : l.endpoint.isOver with
      | false => rfl
      | true => rw [Endpoint.isOver_step hbefore] at hover; cases hover
    rw [frames_append_of_not_frame inputs hframe, wrote_append, hchunk, List.append_nil, ite_self]
    exact h.left notOver
  delivered := h.delivered.snoc hframe hend hgone
  finished other hmem hother :=
    Endpoint.isOver_step (h.finished other (mem_of_isEnd hend hmem hother) hother) input

/-- As long as the endpoint reads, the end of the stream is read now or not at all. -/
theorem Stands.eq_of_isEnd (h : Stands setup events l t inputs)
    (hreads : l.endpoint.reads = true) {input other : DuplexRpc.Event}
    (hmem : other ∈ inputs ++ [input]) (hend : other.isEnd = true) : other = input := by
  obtain hmem | hmem := List.mem_append.mp hmem
  · have earlier := h.finished other hmem hend
    rw [Endpoint.not_isOver_of_reads hreads] at earlier
    cases earlier
  · exact List.mem_singleton.mp hmem

theorem wrote_append_turn (events : List Event) (turn : Turn) :
    wrote (events ++ [.turn turn]) = wrote events := by
  simp [wrote_append, wrote]

theorem Stands.farWrites_turn (h : Stands setup events l t inputs) (turn : Turn) :
    l.farWrites = !(events ++ [Event.turn turn]).any (·.isLast) := by
  simp [h.farWrites, Event.isLast]

theorem Delivered.gone_read (h : Delivered events inputs) (arrival : Arrival) :
    .farGone ∈ inputs ++ [.arrival arrival] ↔ .gone ∈ events ++ [.turn .read] := by
  simp [h.gone]

/-- The endpoint reads a frame. -/
theorem Stands.readFrame (h : Stands setup events l t inputs) (hreads : l.endpoint.reads = true)
    {payload : Bytes} {left : Framing}
    (htaken : Framing.encode payload ++ left.bytes = l.inbound.bytes) :
    Stands setup (events ++ [.turn .read])
      { l with endpoint := (l.endpoint.step (.arrival (.frame payload))).1, inbound := left }
      (t ++ (l.endpoint.step (.arrival (.frame payload))).2)
      (inputs ++ [.arrival (.frame payload)]) := by
  have whole := h.left (Endpoint.not_isOver_of_reads hreads)
  rw [← htaken, ← List.append_assoc] at whole
  have frames : (Event.frames (inputs ++ [.arrival (.frame payload)])).flatMap
      Framing.encode ++ left.bytes = wrote (events ++ [.turn .read]) := by
    simpa [frames_append_frame, wrote_append_turn] using whole
  have unended : ∀ input ∈ inputs ++ [.arrival (.frame payload)], input.isEnd ≠ true := by
    intro input hmem hend
    obtain rfl := h.eq_of_isEnd hreads hmem hend
    cases hend
  exact ⟨h.life_append _, h.farWrites_turn .read, fun _ => frames,
    ⟨⟨_, frames⟩, fun input hmem hend => absurd hend (unended input hmem),
      h.delivered.gone_read _⟩,
    fun input hmem hend => absurd hend (unended input hmem)⟩

/-- The endpoint reads something else, which leaves the bytes as they are. -/
theorem Stands.readOther (h : Stands setup events l t inputs) (hreads : l.endpoint.reads = true)
    {arrival : Arrival} {left : Framing}
    (hframe : (DuplexRpc.Event.arrival arrival).frame? = none)
    (hleft : left.bytes = l.inbound.bytes)
    (hended : (DuplexRpc.Event.arrival arrival).isEnd = true → l.farWrites = false ∧
      (arrival = .closed ↔ Framing.IsSpent l.inbound.bytes)) :
    Stands setup (events ++ [.turn .read])
      { l with endpoint := (l.endpoint.step (.arrival arrival)).1, inbound := left }
      (t ++ (l.endpoint.step (.arrival arrival)).2) (inputs ++ [.arrival arrival]) := by
  have whole := h.left (Endpoint.not_isOver_of_reads hreads)
  rw [← frames_append_of_not_frame inputs hframe, ← wrote_append_turn events .read] at whole
  refine ⟨h.life_append _, h.farWrites_turn .read, fun _ => hleft ▸ whole,
    ⟨whole ▸ List.prefix_append _ _, fun input hmem hend => ?_, h.delivered.gone_read arrival⟩,
    fun input hmem hend => ?_⟩ <;> obtain rfl := h.eq_of_isEnd hreads hmem hend
  · obtain ⟨closed, spent⟩ := hended hend
    rw [h.farWrites, Bool.not_eq_false'] at closed
    obtain ⟨event, hevent, hisLast⟩ := List.any_eq_true.mp closed
    rw [DuplexRpc.Event.arrival.injEq]
    exact ⟨⟨event, List.mem_append_left _ hevent, hisLast⟩, _, whole.symm, spent⟩
  · exact Endpoint.isOver_step_end hreads hend

/-- The endpoint reads what the stream delivers. -/
theorem Stands.read (h : Stands setup events l t inputs) (hreads : l.endpoint.reads = true)
    {arrival : Arrival} {left : Framing}
    (harrival : l.inbound.next l.endpoint.limit (!l.farWrites) = (some arrival, left)) :
    Stands setup (events ++ [.turn .read])
      { l with endpoint := (l.endpoint.step (.arrival arrival)).1, inbound := left }
      (t ++ (l.endpoint.step (.arrival arrival)).2) (inputs ++ [.arrival arrival]) := by
  have taken := Framing.takes_next l.endpoint.limit (!l.farWrites) l.inbound
  rw [harrival] at taken
  cases taken with
  | frame htaken => exact h.readFrame hreads htaken
  | closed hended hleft hspent =>
      rw [Bool.not_eq_true'] at hended
      exact h.readOther hreads rfl hleft fun _ => ⟨hended, fun _ => hspent, fun _ => rfl⟩
  | torn hended hleft hunspent =>
      rw [Bool.not_eq_true'] at hended
      exact h.readOther hreads rfl hleft fun _ => ⟨hended, nofun, (absurd · hunspent)⟩
  | tooBig hleft => exact h.readOther hreads rfl hleft nofun

/-- Time passes on a link, and its endpoint takes no notice. -/
theorem Stands.pass (h : Stands setup events l t inputs) {event : Event}
    (hlast : event.isLast = false) (hchunk : wrote [event] = []) :
    Stands setup (events ++ [event]) l t inputs where
  life := h.life
  farWrites := by simp [h.farWrites, hlast]
  left hover := by
    rw [wrote_append, hchunk, List.append_nil, ite_self]
    exact h.left hover
  delivered := h.delivered.later fun hgone => by
    rw [hgone] at hlast
    cases hlast
  finished := h.finished

theorem Stands.turn (h : Stands setup events l t inputs) (turn : Turn) :
    ∃ inputs, Stands setup (events ++ [.turn turn]) (l.step (.turn turn)).1
      (t ++ (l.step (.turn turn)).2) inputs := by
  have idle : Stands setup (events ++ [.turn turn]) l (t ++ []) inputs := by
    rw [List.append_nil]
    exact h.pass rfl rfl
  by_cases hturn : turn = .read
  · subst hturn
    cases hreads : l.endpoint.reads with
    | false => exact ⟨inputs, by simpa [step, arrival, hreads, Turn.event?] using idle⟩
    | true =>
        cases harrival : l.inbound.next l.endpoint.limit (!l.farWrites) with
        | mk arrival? left =>
            cases arrival? with
            | none =>
                refine ⟨inputs, ?_⟩
                simpa [step, arrival, hreads, harrival, Turn.event?] using idle
            | some arrival =>
                refine ⟨inputs ++ [.arrival arrival], ?_⟩
                simpa [step, Link.arrival, hreads, harrival, Turn.event?] using
                  h.read hreads harrival
  · have acts : ∀ {input : DuplexRpc.Event}, turn.event? none = some input →
        input.frame? = none → input.isEnd = false → input ≠ .farGone →
        Stands setup (events ++ [.turn turn]) (l.step (.turn turn)).1
          (t ++ (l.step (.turn turn)).2) (inputs ++ [input]) := by
      intro input hinput hframe hend hgone
      have notGone : input = .farGone ↔ Event.turn turn = .gone :=
        ⟨fun same => absurd same hgone, nofun⟩
      have hwrites : l.farWrites = (l.farWrites && !Event.isLast (.turn turn)) := by
        simp [Event.isLast]
      have acted := h.act hframe hend notGone rfl hwrites l.farReads
      simpa only [step, if_neg hturn, hinput] using acted
    cases turn with
    | read => exact absurd rfl hturn
    | command => exact ⟨_, acts rfl rfl rfl nofun⟩
    | call procedure args => exact ⟨_, acts rfl rfl rfl nofun⟩
    | close => exact ⟨_, acts rfl rfl rfl nofun⟩
    | peersGone => exact ⟨_, acts rfl rfl rfl nofun⟩

/-- Every step on a link gives its endpoint one more input at most. -/
theorem Stands.step (h : Stands setup events l t inputs) (event : Event) :
    ∃ inputs, Stands setup (events ++ [event]) (l.step event).1 (t ++ (l.step event).2) inputs := by
  cases event with
  | bytes chunk =>
      rw [Link.step, List.append_nil]
      exact ⟨inputs, h.bytes chunk⟩
  | shut =>
      rw [Link.step, List.append_nil]
      have last : wrote (events ++ [.shut]) = wrote events := by simp [wrote_append, wrote]
      refine ⟨inputs, h.life, by simp [Event.isLast], fun hover => ?_,
        h.delivered.later nofun, h.finished⟩
      rw [last]
      exact h.left hover
  | gone =>
      have hwrites : false = (l.farWrites && !Event.isLast .gone) := by simp [Event.isLast]
      have acted := h.act (show DuplexRpc.Event.frame? .farGone = none from rfl) rfl
        ⟨fun _ => rfl, fun _ => rfl⟩ rfl hwrites false
      rw [Endpoint.step_farGone] at acted
      exact ⟨_, acted⟩
  | turn turn => exact h.turn turn

theorem Stands.run (h : Stands setup events l t inputs) (later : List Event) :
    ∃ inputs, Stands setup (events ++ later) (l.run later).1 (t ++ (l.run later).2) inputs := by
  induction later generalizing events l t inputs with
  | nil => exact ⟨inputs, by simpa [Link.run] using h⟩
  | cons event rest ih =>
      obtain ⟨inputs, first⟩ := h.step event
      simpa [Link.run] using ih first

end

/-- Whatever happens on a link, its endpoint lives as one does that is given its input outright. -/
theorem life_delivered (setup : Setup σ) (events : List Event) :
    ∃ inputs, Delivered events inputs ∧
      Endpoint.life setup inputs = ((life setup events).1.endpoint, (life setup events).2) := by
  obtain ⟨inputs, h⟩ := (Stands.start setup).run events
  exact ⟨inputs, h.delivered, h.life⟩

end Link

end DuplexRpc
