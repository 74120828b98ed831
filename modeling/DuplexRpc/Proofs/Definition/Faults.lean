import DuplexRpc.Proofs.Definition.Statements

/-!
# The first fault

A text can be wrong in many ways at once. Its faults have ranks, and one of the least rank is
reported: what is judged first decides before what is judged after it. The faults of a group
are ranked by the positions of its parameters.
-/

namespace DuplexRpc

open Grammar Statement

namespace Grammar

/-! ### Reports -/

/-- A judgement is reported under a kind and with a detail. -/
def Reports {α : Type} (judgement : Except Fault α) (kind : FaultKind) (detail : String) : Prop :=
  ∃ fault, judgement = .error fault ∧ fault.kind = kind ∧ fault.detail? = some detail

theorem reports_error {α : Type} {fault : Fault} {kind : FaultKind} {detail : String} :
    Reports (.error fault : Except Fault α) kind detail ↔
      fault.kind = kind ∧ fault.detail? = some detail := by
  constructor
  · rintro ⟨_, same, reported⟩
    obtain rfl := Except.error.inj same
    exact reported
  · intro reported
    exact ⟨fault, rfl, reported⟩

theorem not_reports_ok {α : Type} {a : α} {kind : FaultKind} {detail : String} :
    ¬ Reports (.ok a : Except Fault α) kind detail := by
  rintro ⟨_, same, -⟩
  cases same

/-- A judgement is reported in one way at most. -/
theorem Reports.unique {α : Type} {judgement : Except Fault α} {kind otherKind : FaultKind}
    {detail otherDetail : String} (h : Reports judgement kind detail)
    (other : Reports judgement otherKind otherDetail) :
    kind = otherKind ∧ detail = otherDetail := by
  obtain ⟨fault, rfl, rfl, named⟩ := h
  obtain ⟨rfl, otherNamed⟩ := reports_error.mp other
  exact ⟨rfl, Option.some.inj (named.symm.trans otherNamed)⟩

theorem reports_bind {α β : Type} {x : Except Fault α} {f : α → Except Fault β} {kind : FaultKind}
    {detail : String} :
    Reports (x >>= f) kind detail ↔
      Reports x kind detail ∨ ∃ a, x = .ok a ∧ Reports (f a) kind detail := by
  cases x with
  | error fault =>
      constructor
      · rintro ⟨_, same, reported⟩
        obtain rfl := Except.error.inj same
        exact .inl ⟨_, rfl, reported⟩
      · rintro (⟨_, same, reported⟩ | ⟨_, same, -⟩)
        · obtain rfl := Except.error.inj same
          exact ⟨_, rfl, reported⟩
        · cases same
  | ok a =>
      constructor
      · intro reported
        exact .inr ⟨a, rfl, reported⟩
      · rintro (reported | ⟨_, same, reported⟩)
        · exact absurd reported not_reports_ok
        · obtain rfl := Except.ok.inj same
          exact reported

theorem guard_bind {α β : Type} {c : Prop} [Decidable c] {fault : Fault} {x : Except Fault α}
    {f : α → Except Fault β} :
    (if c then .error fault else x) >>= f = if c then .error fault else x >>= f := by
  split <;> rfl

/-- A judgement that finds a fault says more about it than its kind. -/
def Detailed {α : Type} (judgement : Except Fault α) : Prop :=
  ∀ fault, judgement = .error fault → ∃ detail, fault.detail? = some detail

theorem Detailed.ok {α : Type} {a : α} : Detailed (.ok a : Except Fault α) := by
  intro fault same
  cases same

theorem Detailed.error {α : Type} {fault : Fault} (h : ∃ detail, fault.detail? = some detail) :
    Detailed (.error fault : Except Fault α) := by
  intro other same
  obtain rfl := Except.error.inj same
  exact h

theorem Detailed.bind {α β : Type} {x : Except Fault α} {f : α → Except Fault β}
    (first : Detailed x) (next : ∀ a, Detailed (f a)) : Detailed (x >>= f) := by
  intro fault found
  obtain failed | ⟨a, -, failed⟩ := bind_eq_error.mp found
  · exact first fault failed
  · exact next a fault failed

theorem Detailed.guard {α : Type} {c : Prop} [Decidable c] {fault : Fault} {x : Except Fault α}
    (named : ∃ detail, fault.detail? = some detail) (next : Detailed x) :
    Detailed (if c then .error fault else x) := by
  split
  · exact .error named
  · exact next

/-! ### The first fault -/

/-- Of faults that have ranks, one of the least rank. -/
def First (faults : Nat → FaultKind → String → Prop) (kind : FaultKind) (detail : String) : Prop :=
  ∃ rank, faults rank kind detail ∧ ∀ earlier < rank, ∀ kind detail, ¬ faults earlier kind detail

section

variable {α β : Type} {faults : Nat → FaultKind → String → Prop} {kind : FaultKind}
  {detail : String}

theorem first_iff :
    First faults kind detail ↔ faults 0 kind detail ∨
      (∀ kind detail, ¬ faults 0 kind detail) ∧ First (fun i => faults (i + 1)) kind detail := by
  constructor
  · rintro ⟨rank, fault, first⟩
    cases rank with
    | zero => exact .inl fault
    | succ rank =>
        refine .inr ⟨first 0 (Nat.succ_pos rank), rank, fault, ?_⟩
        intro earlier inFront
        exact first (earlier + 1) (Nat.succ_lt_succ inFront)
  · rintro (fault | ⟨none, rank, fault, first⟩)
    · exact ⟨0, fault, fun earlier inFront => absurd inFront (Nat.not_lt_zero earlier)⟩
    · refine ⟨rank + 1, fault, ?_⟩
      intro earlier inFront
      cases earlier with
      | zero => exact none
      | succ earlier => exact first earlier (Nat.lt_of_succ_lt_succ inFront)

theorem first_congr {others : Nat → FaultKind → String → Prop}
    (h : ∀ rank kind detail, faults rank kind detail ↔ others rank kind detail) :
    First faults kind detail ↔ First others kind detail := by
  simp only [First, h]

/-- Without a fault of rank 0 the first fault is among the others. -/
theorem first_succ_iff (none : ∀ kind detail, ¬ faults 0 kind detail) :
    First faults kind detail ↔ First (fun i => faults (i + 1)) kind detail := by
  rw [first_iff, or_iff_right (none kind detail), and_iff_right none]

/-- What is judged first has the fault of rank 0, and what is judged after it has the others. -/
theorem reports_bind_iff_first {x : Except Fault α} {f : α → Except Fault β} (told : Detailed x)
    (here : ∀ kind detail, Reports x kind detail ↔ faults 0 kind detail)
    (later : ∀ a, x = .ok a →
      (Reports (f a) kind detail ↔ First (fun i => faults (i + 1)) kind detail)) :
    Reports (x >>= f) kind detail ↔ First faults kind detail := by
  rw [reports_bind, first_iff, here]
  cases judged : x with
  | error fault =>
      obtain ⟨text, named⟩ := told fault judged
      have offends := (here _ _).mp ⟨fault, judged, rfl, named⟩
      have failed : ¬ ∃ a, (.error fault : Except Fault α) = .ok a ∧ Reports (f a) kind detail := by
        rintro ⟨_, same, -⟩
        cases same
      rw [or_iff_left failed, or_iff_left fun other => other.1 _ _ offends]
  | ok a =>
      have none : ∀ kind detail, ¬ faults 0 kind detail := by
        intro kind detail fault
        have reported := (here kind detail).mpr fault
        rw [judged] at reported
        exact not_reports_ok reported
      rw [or_iff_right (none kind detail), or_iff_right (none kind detail), and_iff_right none,
        ← later a judged]
      constructor
      · rintro ⟨_, same, reported⟩
        obtain rfl := Except.ok.inj same
        exact reported
      · intro reported
        exact ⟨a, rfl, reported⟩

theorem reports_error_iff_first {fault : Fault} (named : ∃ detail, fault.detail? = some detail)
    (here : ∀ kind detail,
      fault.kind = kind ∧ fault.detail? = some detail ↔ faults 0 kind detail) :
    Reports (.error fault : Except Fault α) kind detail ↔ First faults kind detail := by
  obtain ⟨text, named⟩ := named
  have offends := (here _ _).mp ⟨rfl, named⟩
  rw [reports_error, here, first_iff, or_iff_left fun other => other.1 _ _ offends]

theorem reports_ok_iff_first {a : α} (none : ∀ rank kind detail, ¬ faults rank kind detail) :
    Reports (.ok a) kind detail ↔ First faults kind detail := by
  refine iff_of_false not_reports_ok ?_
  rintro ⟨rank, fault, -⟩
  exact none rank kind detail fault

/-- A guard has the fault of rank 0, and what comes behind it has the others. -/
theorem reports_guard_iff_first {c : Prop} [Decidable c] {fault : Fault} {x : Except Fault α}
    (named : ∃ detail, fault.detail? = some detail)
    (here : ∀ kind detail,
      c ∧ fault.kind = kind ∧ fault.detail? = some detail ↔ faults 0 kind detail)
    (later : ¬ c → (Reports x kind detail ↔ First (fun i => faults (i + 1)) kind detail)) :
    Reports (if c then .error fault else x) kind detail ↔ First faults kind detail := by
  by_cases applies : c
  · rw [if_pos applies]
    refine reports_error_iff_first named fun kind detail => ?_
    rw [← here, and_iff_right applies]
  · have none : ∀ kind detail, ¬ faults 0 kind detail := by
      intro kind detail fault
      exact applies ((here kind detail).mpr fault).1
    rw [if_neg applies, first_succ_iff none, later applies]

end

/-! ### Parameters -/

/-- `ws? identifier ws word ws?`, the shape of a parameter, where the word of letters and digits
need not be the name of a type. -/
inductive SpellsPair : List Char → String → String → Prop
  | pair {lead gap trail : List Char} {name type : String} (lead_ws : OptWs lead)
      (name_id : Identifier name) (gap_ws : Ws gap)
      (type_word : type.toList ≠ [] ∧ ∀ c ∈ type.toList, c.isAlphanum) (trail_ws : OptWs trail) :
      SpellsPair (lead ++ name.toList ++ gap ++ type.toList ++ trail) name type

/-- A text that stands in a group between two commas, or between a comma and an end of the group.
Its position is one more than the number of commas before it. -/
def PieceAt (group : List Char) (position : Nat) (text : List Char) : Prop :=
  ∃ before after, group = before ++ text ++ after ∧ ',' ∉ text ∧
    (∀ c ∈ before.getLast?, c = ',') ∧ (∀ c ∈ after.head?, c = ',') ∧
      position = before.count ',' + 1

def ParamType (type : String) : Prop := ∃ b : Builtin, b.isParamType ∧ b.name = type

/-- What is wrong with the parameter at a position of a group: that it has not the shape of one, or
else its type, or else that its name is that of a parameter before it. -/
inductive Offends (group : List Char) (position : Nat) : FaultKind → String → Prop
  | malformed {text : List Char} (piece : PieceAt group position text)
      (shapeless : ∀ name type, ¬ SpellsPair text name type) :
      Offends group position .invalidParameter
        ("at position " ++ toString position ++ ": \"" ++ String.ofList (Text.trim text) ++ "\"")
  | unknownType {text : List Char} {name type : String} (piece : PieceAt group position text)
      (pair : SpellsPair text name type) (unknown : ¬ ParamType type) :
      Offends group position .invalidParameter
        ("at position " ++ toString position ++ ": unknown type \"" ++ type ++ "\"")
  | duplicate {text other : List Char} {name type otherType : String} {earlier : Nat}
      (piece : PieceAt group position text) (pair : SpellsPair text name type)
      (known : ParamType type) (before : earlier < position)
      (otherPiece : PieceAt group earlier other) (otherPair : SpellsPair other name otherType) :
      Offends group position .duplicateParameterIdentifier
        ("at position " ++ toString position ++ ": \"" ++ name ++ "\"")

theorem Offends.piece {group : List Char} {position : Nat} {kind : FaultKind} {detail : String}
    (h : Offends group position kind detail) : ∃ text, PieceAt group position text := by
  cases h with
  | malformed piece | unknownType piece | duplicate piece => exact ⟨_, piece⟩

/-- The offending parameter of a group is the one at the least position. An empty group has no
parameters. -/
def FirstOffence (group : List Char) (kind : FaultKind) (detail : String) : Prop :=
  group ≠ [] ∧ First (Offends group) kind detail

theorem spellsPair_iff {text : List Char} {name type : String} :
    SpellsPair text name type ↔ param? text = some (name, type) := by
  rw [param?_eq_some_iff]
  constructor
  · rintro ⟨lead_ws, name_id, gap_ws, ⟨nonempty, kind⟩, trail_ws⟩
    exact ⟨name_id, nonempty, kind, _, _, _, lead_ws, gap_ws, trail_ws,
      by simp only [List.append_assoc]⟩
  · rintro ⟨name_id, nonempty, kind, lead, gap, trail, lead_ws, gap_ws, trail_ws, rfl⟩
    simpa only [List.append_assoc] using
      SpellsPair.pair lead_ws name_id gap_ws ⟨nonempty, kind⟩ trail_ws

theorem not_paramType_iff {type : String} :
    ¬ ParamType type ↔ (Builtin.ofName? type).filter Builtin.isParamType = none := by
  rw [Option.eq_none_iff_forall_ne_some, ParamType, not_exists]
  refine forall_congr' fun b => not_congr ?_
  rw [Option.filter_eq_some_iff, Builtin.ofName?_eq_some_iff, and_comm]

/-! ### Pieces of a group -/

theorem pieceAt_of_notMem {group text : List Char} {position : Nat} (h : ',' ∉ group) :
    PieceAt group position text ↔ position = 1 ∧ text = group := by
  constructor
  · rintro ⟨before, after, rfl, -, starts, ends, rfl⟩
    simp only [List.mem_append, not_or] at h
    obtain ⟨⟨no_before, -⟩, no_after⟩ := h
    have first : before = [] := by
      by_contra nonempty
      have last := List.getLast?_eq_some_getLast nonempty
      exact no_before (starts _ last ▸ List.getLast_mem nonempty)
    have last : after = [] := by
      by_contra nonempty
      have head := List.head?_eq_some_head nonempty
      exact no_after (ends _ head ▸ List.head_mem nonempty)
    subst first last
    exact ⟨rfl, (List.append_nil _).symm⟩
  · rintro ⟨rfl, rfl⟩
    exact ⟨[], [], by simp, h, by simp, by simp, rfl⟩

/-- Behind the first comma of a group the pieces of the rest follow. -/
theorem pieceAt_append {piece rest text : List Char} {position : Nat} (h : ',' ∉ piece) :
    PieceAt (piece ++ ',' :: rest) position text ↔
      position = 1 ∧ text = piece ∨ ∃ place, position = place + 1 ∧ PieceAt rest place text := by
  have none_in : piece.count ',' = 0 := List.count_eq_zero.mpr h
  constructor
  · rintro ⟨before, after, whole, plain, starts, ends, rfl⟩
    obtain rfl | ⟨init, c, rfl⟩ := List.eq_nil_or_concat before
    · -- the first piece ends where the first comma is
      have comma : ',' ∈ after := by
        have inside : ',' ∈ [] ++ text ++ after := whole ▸ by simp
        simpa [plain] using inside
      obtain ⟨head, more, rfl⟩ := List.exists_cons_of_ne_nil (List.ne_nil_of_mem comma)
      obtain rfl := ends head rfl
      have pieces := congrArg splitCommas whole
      rw [List.nil_append, splitCommas_append h, splitCommas_append plain] at pieces
      exact .inl ⟨rfl, (List.cons.inj pieces).1.symm⟩
    · rw [List.concat_eq_append, List.getLast?_concat] at starts
      obtain rfl := starts c rfl
      rw [List.concat_eq_append, List.append_assoc, List.append_assoc] at whole
      rw [List.concat_eq_append, List.count_append]
      refine .inr ⟨init.count ',' + 1, rfl, ?_⟩
      rcases List.append_eq_append_iff.mp whole with ⟨between, rfl, tail⟩ | ⟨beyond, rfl, tail⟩
      · rcases between with - | ⟨d, between⟩
        · obtain ⟨-, rfl⟩ := List.cons.inj tail
          refine ⟨[], after, rfl, plain, by simp, ends, ?_⟩
          simp [none_in]
        · obtain ⟨rfl, rfl⟩ := List.cons.inj tail
          refine ⟨between ++ [','], after, by simp, plain, by simp, ends, ?_⟩
          simp [none_in, Nat.add_comm]
      · rcases beyond with - | ⟨d, beyond⟩
        · obtain ⟨-, rfl⟩ := List.cons.inj tail
          refine ⟨[], after, rfl, plain, by simp, ends, ?_⟩
          simpa using none_in
        · obtain ⟨rfl, -⟩ := List.cons.inj tail
          exact absurd (by simp) h
  · rintro (⟨rfl, rfl⟩ | ⟨_, rfl, before, after, rfl, plain, starts, ends, rfl⟩)
    · exact ⟨[], ',' :: rest, by simp, h, by simp, by simp, rfl⟩
    · refine ⟨piece ++ ',' :: before, after, by simp, plain, ?_, ends, ?_⟩
      · intro c last
        rcases List.eq_nil_or_concat before with rfl | ⟨init, d, rfl⟩
        · simpa using last.symm
        · apply starts
          simpa [List.getLast?_cons] using last
      · simp [none_in]

/-- The pieces of a group are its texts between commas, in their order. -/
theorem pieceAt_iff {group text : List Char} {position : Nat} :
    PieceAt group position text ↔
      ∃ i, position = i + 1 ∧ (splitCommas group)[i]? = some text := by
  induction length : group.length using Nat.strongRecOn generalizing group position with
  | ind n ih =>
      by_cases comma : ',' ∈ group
      · obtain ⟨piece, rest, rfl, absent⟩ := List.eq_append_cons_of_mem comma
        have shorter : rest.length < n := by
          rw [← length, List.length_append, List.length_cons]
          omega
        rw [pieceAt_append absent, splitCommas_append absent]
        constructor
        · rintro (⟨rfl, rfl⟩ | ⟨_, rfl, there⟩)
          · exact ⟨0, rfl, rfl⟩
          · obtain ⟨i, rfl, found⟩ := (ih _ shorter rfl).mp there
            exact ⟨i + 1, rfl, found⟩
        · rintro ⟨i, rfl, found⟩
          cases i with
          | zero => exact .inl ⟨rfl, (Option.some.inj found).symm⟩
          | succ i => exact .inr ⟨i + 1, rfl, (ih _ shorter rfl).mpr ⟨i, rfl, found⟩⟩
      · rw [pieceAt_of_notMem comma, splitCommas_of_notMem comma]
        constructor
        · rintro ⟨rfl, rfl⟩
          exact ⟨0, rfl, rfl⟩
        · rintro ⟨i, rfl, found⟩
          cases i with
          | zero => exact ⟨rfl, (Option.some.inj found).symm⟩
          | succ i => cases found

theorem pieceAt_succ_iff {group text : List Char} {i : Nat} :
    PieceAt group (i + 1) text ↔ (splitCommas group)[i]? = some text := by
  rw [pieceAt_iff]
  constructor
  · rintro ⟨j, same, found⟩
    rwa [Nat.succ_inj.mp same]
  · intro found
    exact ⟨i, rfl, found⟩

/-- At one position there is one text at most. -/
theorem PieceAt.unique {group text other : List Char} {position : Nat}
    (h : PieceAt group position text) (h' : PieceAt group position other) : text = other := by
  obtain ⟨i, rfl, found⟩ := pieceAt_iff.mp h
  exact Option.some.inj (found.symm.trans (pieceAt_succ_iff.mp h'))

end Grammar

/-! ### Groups -/

namespace Param

variable {group : List Char} {done more : List (List Char)} {params : List Param}
  {kind : FaultKind} {detail : String}

/-- The names that are taken are those of the parameters before. -/
theorem any_name_iff (h : List.Forall₂ SpellsParam done params) {name : String} :
    params.any (·.name == name) ↔
      ∃ (j : Nat) (text : List Char) (type : String),
        done[j]? = some text ∧ SpellsPair text name type := by
  induction h with
  | nil => simp
  | @cons text p done params spelled _ ih =>
      obtain ⟨own, type, b, read, -, rfl⟩ := spellsParam_iff.mp spelled
      rw [List.any_cons, Bool.or_eq_true, ih, beq_iff_eq]
      constructor
      · rintro (rfl | ⟨j, there⟩)
        · exact ⟨0, text, type, rfl, spellsPair_iff.mpr read⟩
        · exact ⟨j + 1, there⟩
      · rintro ⟨j, other, otherType, found, pair⟩
        cases j with
        | zero =>
            obtain rfl := Option.some.inj found
            have same := spellsPair_iff.mp pair
            rw [read] at same
            exact .inl (Prod.mk.inj (Option.some.inj same)).1
        | succ j => exact .inr ⟨j, other, otherType, found, pair⟩

/-- A parameter is judged at its position behind parameters of which none is at fault. -/
theorem judge_reports_iff {text : List Char} (whole : splitCommas group = done ++ text :: more)
    (spelled : List.Forall₂ SpellsParam done params) :
    Reports (judge (done.length + 1) params text) kind detail ↔
      Offends group (done.length + 1) kind detail := by
  have here : PieceAt group (done.length + 1) text := by
    rw [pieceAt_succ_iff, whole, List.getElem?_append_right (Nat.le_refl _), Nat.sub_self]
    rfl
  have before : ∀ {j : Nat} {other : List Char}, done[j]? = some other →
      j + 1 < done.length + 1 ∧ PieceAt group (j + 1) other := by
    intro j other found
    have inside := (List.getElem?_eq_some_iff.mp found).1
    refine ⟨by omega, ?_⟩
    rwa [pieceAt_succ_iff, whole, List.getElem?_append_left inside]
  constructor
  · intro reported
    unfold judge at reported
    split at reported
    next shapeless =>
      obtain ⟨rfl, same⟩ := reports_error.mp reported
      obtain rfl := Option.some.inj same
      refine .malformed here fun name type pair => ?_
      rw [spellsPair_iff.mp pair] at shapeless
      cases shapeless
    next name type read =>
      have pair := spellsPair_iff.mpr read
      split at reported
      next unknown =>
        obtain ⟨rfl, same⟩ := reports_error.mp reported
        obtain rfl := Option.some.inj same
        exact .unknownType here pair (not_paramType_iff.mpr unknown)
      next b found =>
        have known : ParamType type := by
          by_contra unknown
          rw [not_paramType_iff.mp unknown] at found
          cases found
        split at reported
        next taken =>
          obtain ⟨rfl, same⟩ := reports_error.mp reported
          obtain rfl := Option.some.inj same
          obtain ⟨j, other, otherType, there, otherPair⟩ := (any_name_iff spelled).mp taken
          obtain ⟨inFront, otherPiece⟩ := before there
          exact .duplicate here pair known inFront otherPiece otherPair
        next => exact absurd reported not_reports_ok
  · intro offends
    unfold judge
    cases offends with
    | malformed piece shapeless =>
        obtain rfl := here.unique piece
        have unread : param? text = none := by
          by_contra found
          obtain ⟨⟨name, type⟩, read⟩ := Option.ne_none_iff_exists'.mp found
          exact shapeless name type (spellsPair_iff.mpr read)
        rw [unread]
        exact reports_error.mpr ⟨rfl, rfl⟩
    | unknownType piece pair unknown =>
        obtain rfl := here.unique piece
        rw [spellsPair_iff.mp pair]
        simp only [not_paramType_iff.mp unknown]
        exact reports_error.mpr ⟨rfl, rfl⟩
    | duplicate piece pair known inFront otherPiece otherPair =>
        obtain rfl := here.unique piece
        obtain ⟨j, rfl, there⟩ := pieceAt_iff.mp otherPiece
        rw [whole, List.getElem?_append_left (by omega)] at there
        have taken := (any_name_iff spelled).mpr ⟨j, _, _, there, otherPair⟩
        obtain ⟨b, found⟩ := Option.ne_none_iff_exists'.mp
          (mt not_paramType_iff.mpr (not_not_intro known))
        rw [spellsPair_iff.mp pair]
        simp only [found]
        rw [if_pos taken]
        exact reports_error.mpr ⟨rfl, rfl⟩

theorem detailed_judge (position : Nat) (earlier : List Param) (text : List Char) :
    Detailed (judge position earlier text) := by
  unfold judge
  split
  · exact .error ⟨_, rfl⟩
  · split
    · exact .error ⟨_, rfl⟩
    · split
      · exact .error ⟨_, rfl⟩
      · exact .ok

theorem detailed_judgeAll (position : Nat) (earlier : List Param) (texts : List (List Char)) :
    Detailed (judgeAll position earlier texts) := by
  induction texts generalizing position earlier with
  | nil => exact .ok
  | cons text more ih => exact .bind (detailed_judge position earlier text) fun _ => ih _ _

theorem detailed_ofGroup (group : List Char) : Detailed (ofGroup group) := by
  unfold ofGroup
  split
  · exact .ok
  · exact detailed_judgeAll 1 [] _

/-- A list of parameters is at fault where the first of them is. -/
theorem judgeAll_reports_iff (whole : splitCommas group = done ++ more)
    (spelled : List.Forall₂ SpellsParam done params) :
    Reports (judgeAll (done.length + 1) params more) kind detail ↔
      First (fun i => Offends group (done.length + 1 + i)) kind detail := by
  induction more generalizing done params with
  | nil =>
      refine ⟨fun reported => absurd reported not_reports_ok, fun first => ?_⟩
      obtain ⟨i, offends, -⟩ := first
      obtain ⟨text, piece⟩ := offends.piece
      obtain ⟨j, place, found⟩ := pieceAt_iff.mp piece
      rw [whole, List.append_nil] at found
      have inside := (List.getElem?_eq_some_iff.mp found).1
      omega
  | cons text more ih =>
      refine reports_bind_iff_first (detailed_judge _ params text)
        (fun kind detail => judge_reports_iff whole spelled) ?_
      intro p judged
      have rest := @ih (done ++ [text]) (params ++ [p]) (by rw [whole, List.append_cons])
        (List.rel_append spelled (.cons (judge_eq_ok_iff.mp judged).1 .nil))
      rw [List.length_append, List.length_singleton] at rest
      rw [rest]
      simp only [Nat.add_assoc, Nat.add_comm 1]

/-- A group is judged by the first of its parameters that is at fault. -/
theorem ofGroup_reports_iff :
    Reports (ofGroup group) kind detail ↔ FirstOffence group kind detail := by
  unfold ofGroup FirstOffence
  split
  next empty =>
    obtain rfl := List.isEmpty_iff.mp empty
    exact ⟨fun reported => absurd reported not_reports_ok, fun offence => absurd rfl offence.1⟩
  next nonempty =>
    have start : ∀ kind detail, ¬ Offends group 0 kind detail := by
      intro kind detail offends
      obtain ⟨_, _, _, -, -, -, -, position⟩ := offends.piece
      omega
    have all := @judgeAll_reports_iff group [] (splitCommas group) [] kind detail rfl .nil
    rw [and_iff_right (mt List.isEmpty_iff.mpr nonempty), first_succ_iff start]
    simpa only [List.length_nil, Nat.zero_add, Nat.add_comm 1] using all

end Param

end DuplexRpc
