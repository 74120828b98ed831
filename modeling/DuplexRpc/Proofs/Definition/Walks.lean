import DuplexRpc.Proofs.Definition.Cursor
import DuplexRpc.Proofs.Definition.Stretches
import Mathlib.Data.List.Count

/-!
# Walks over a source

A cursor is asked to show the next line or to hand it over, in any order. To whoever asks, it
is a tape of items with a number: a line stays on the tape until it is taken, a failure goes
as soon as it has been reported, and only lines that are taken are counted. The tape is known
from the stretches of the source, so neither chunks nor the line that a cursor keeps show.
-/

namespace DuplexRpc

namespace Cursor

inductive Query
  | peek | line
  deriving DecidableEq

/-- The answer of a cursor: a line, or none at the end, unless reading fails. -/
abbrev Answer := Except String (Option String)

structure Visit where
  query : Query
  answer : Answer

namespace Visit

/-- Whether a line is taken. -/
def takes : Visit → Bool
  | ⟨.line, .ok (some _)⟩ => true
  | _ => false

/-- Whether an item is gone after the visit: a line that is taken, or a failure. -/
def passes (visit : Visit) : Bool := visit.takes || !visit.answer.isOk

theorem passes_iff {visit : Visit} : visit.passes ↔ (∃ reason, visit.answer = .error reason) ∨
    visit.query = .line ∧ ∃ text, visit.answer = .ok (some text) := by
  rcases visit with ⟨_ | _, _ | _ | _⟩ <;> simp [passes, takes, Except.isOk, Except.toBool]

end Visit

def ask (c : Cursor) : Query → Answer × Cursor
  | .peek => c.peek
  | .line => c.line

def askAll {σ : Type} (ask : σ → Query → Answer × σ) (s : σ) : List Query → List Visit × σ
  | [] => ([], s)
  | query :: more =>
    let (answer, after) := ask s query
    let (history, final) := askAll ask after more
    (⟨query, answer⟩ :: history, final)

/-- A cursor without a source: the items to come, and how many lines have been taken. -/
structure Tape where
  coming : List Item
  lineNumber : Nat

def Tape.ask : Tape → Query → Answer × Tape
  | ⟨[], n⟩, _ => (.ok none, ⟨[], n⟩)
  | ⟨.failure reason :: later, n⟩, _ => (.error reason, ⟨later, n⟩)
  | ⟨.line text :: later, n⟩, .peek => (.ok (some text), ⟨.line text :: later, n⟩)
  | ⟨.line text :: later, n⟩, .line => (.ok (some text), ⟨later, n + 1⟩)

def tape (c : Cursor) : Tape := ⟨c.items, c.lineNumber⟩

/-- The visit at place `k` of a history meets item `i`: the items before it are gone, and it is
not. -/
def Meets (history : List Visit) (k : Nat) (visit : Visit) (i : Nat) : Prop :=
  history[k]? = some visit ∧ history.countPBefore Visit.passes k = i

/-- Each item has its turn. -/
structure InTurn (items : List Item) (queries : List Query) (history : List Visit) : Prop where
  /-- Every query is answered, in the order in which they are asked. -/
  asked : history.map Visit.query = queries
  /-- A failure is reported by the query that meets it, and no other query meets it. -/
  failure : ∀ {i k reason visit}, items[i]? = some (.failure reason) → Meets history k visit i →
    visit.answer = .error reason ∧ ∀ {l other}, Meets history l other i → l = k
  /-- A line is the answer to every query that meets it. The query that takes it is the last. -/
  line : ∀ {i k text visit}, items[i]? = some (.line text) → Meets history k visit i →
    visit.answer = .ok (some text) ∧
      (visit.query = .line → ∀ {l other}, Meets history l other i → l ≤ k)
  /-- Behind the last item there is nothing. -/
  nothing : ∀ {i k visit}, items.length ≤ i → Meets history k visit i → visit.answer = .ok none
  /-- Whoever goes on asking for lines comes to every item: one query reports a failure, and one
  takes a line. -/
  reported : ∀ {i reason}, items[i]? = some (.failure reason) → i < queries.count .line →
    ∃! k, ∃ query, Meets history k ⟨query, .error reason⟩ i
  taken : ∀ {i text}, items[i]? = some (.line text) → i < queries.count .line →
    ∃! k, Meets history k ⟨.line, .ok (some text)⟩ i

/-! ### Cursors as tapes -/

theorem askAll_cons {σ : Type} (ask : σ → Query → Answer × σ) (s : σ) (query : Query)
    (more : List Query) : askAll ask s (query :: more) =
      (⟨query, (ask s query).1⟩ :: (askAll ask (ask s query).2 more).1,
        (askAll ask (ask s query).2 more).2) := rfl

/-- If one view of what answers explains every single answer, it explains all of them. -/
theorem askAll_view {σ τ : Type} {ask : σ → Query → Answer × σ} {ask' : τ → Query → Answer × τ}
    {view : σ → τ} (h : ∀ s query, ask' (view s) query = ((ask s query).1, view (ask s query).2))
    (s : σ) (queries : List Query) :
    askAll ask' (view s) queries = ((askAll ask s queries).1, view (askAll ask s queries).2) := by
  induction queries generalizing s with
  | nil => rfl
  | cons query more ih => rw [askAll_cons, askAll_cons, h, ih]

/-- When there is no line to read, there will be none later either. -/
theorem items_of_read_none {c : Cursor} {rest : Source} (h : c.read = (.ok none, rest)) :
    rest.items = [] := by
  unfold read at h
  split at h
  next found after next =>
    obtain ⟨-, rfl⟩ := Prod.mk.inj h
    obtain rfl := Source.eq_nil_of_takeItem_none next
    exact Source.items_of_next_none rfl
  next => cases h
  next => cases h

theorem items_of_line_none {c after : Cursor} (h : c.line = (.ok none, after)) :
    after.items = [] := by
  unfold line at h
  split at h
  next => cases h
  next ahead =>
    split at h
    next => cases h
    next result rest _ read =>
      obtain ⟨rfl, rfl⟩ := Prod.mk.inj h
      have left : ({ c with source := rest } : Cursor).items = rest.items :=
        items_of_ahead_none ahead
      rw [left, items_of_read_none read]

/-- Looking ahead leaves all items to come, unless it fails, and counts no line. -/
theorem left_of_peek {c looked : Cursor} {seen : Answer} (h : c.peek = (seen, looked)) :
    (seen.isOk → looked.items = c.items) ∧ looked.lineNumber = c.lineNumber := by
  have coming := items_of_peek h
  unfold peek at h
  split at h
  next text ahead =>
    obtain ⟨-, rfl⟩ := Prod.mk.inj h
    exact ⟨fun _ => rfl, rfl⟩
  next ahead =>
    split at h
    next found rest read =>
      obtain ⟨rfl, rfl⟩ := Prod.mk.inj h
      refine ⟨fun _ => ?_, rfl⟩
      rw [coming]
      cases found with
      | none => exact items_of_read_none read
      | some text => rfl
    next reason rest read =>
      obtain ⟨rfl, rfl⟩ := Prod.mk.inj h
      exact ⟨nofun, rfl⟩

theorem tape_peek (c : Cursor) : c.tape.ask .peek = (c.peek.1, c.peek.2.tape) := by
  cases peeked : c.peek with
  | mk seen looked =>
    have coming := items_of_peek peeked
    obtain ⟨left, number⟩ := left_of_peek peeked
    cases seen with
    | error reason => simp only [tape, coming, Tape.ask, number]
    | ok line =>
        have same := left rfl
        cases line <;> simp only [tape, same, coming, Tape.ask, number]

theorem tape_line (c : Cursor) : c.tape.ask .line = (c.line.1, c.line.2.tape) := by
  cases asked : c.line with
  | mk taken after =>
    obtain ⟨coming, number⟩ := items_of_line asked
    cases taken with
    | error reason => simp only [tape, coming, Tape.ask, number]
    | ok line =>
        cases line with
        | none => simp only [tape, items_of_line_none asked, coming, Tape.ask, number]
        | some text => simp only [tape, coming, Tape.ask, number]

theorem ask_tape (c : Cursor) (query : Query) :
    c.tape.ask query = ((c.ask query).1, (c.ask query).2.tape) := by
  cases query with
  | peek => exact tape_peek c
  | line => exact tape_line c

/-- Asking a cursor is asking its tape. -/
theorem askAll_tape (c : Cursor) (queries : List Query) :
    askAll Tape.ask c.tape queries =
      ((askAll ask c queries).1, (askAll ask c queries).2.tape) :=
  askAll_view ask_tape c queries

/-! ### Meeting items -/

section

variable {history : List Visit} {first visit other : Visit} {i k l : Nat}

theorem meets_cons_zero : Meets (first :: history) 0 visit i ↔ visit = first ∧ i = 0 := by
  simp [Meets, eq_comm]

theorem meets_cons_succ : Meets (first :: history) (k + 1) visit i ↔
    ∃ j, i = first.passes.toNat + j ∧ Meets history k visit j := by
  have gone : (first :: history).countPBefore Visit.passes (k + 1) =
      first.passes.toNat + history.countPBefore Visit.passes k := by
    cases passes : first.passes <;> simp [passes, Nat.add_comm]
  rw [Meets, gone, List.getElem?_cons_succ]
  constructor
  · rintro ⟨asked, rfl⟩
    exact ⟨_, rfl, asked, rfl⟩
  · rintro ⟨j, rfl, asked, rfl⟩
    exact ⟨asked, rfl⟩

/-- An item that has been passed is not met again. -/
theorem Meets.le_of_passes (h : Meets history k visit i) (passes : visit.passes)
    (later : Meets history l other i) : l ≤ k := by
  by_contra after
  have gone : history.countPBefore Visit.passes (k + 1) = i + 1 := by
    rw [List.countPBefore_eq_countP_take, List.take_add_one, h.1, Option.toList_some,
      List.countP_append, ← List.countPBefore_eq_countP_take, h.2, List.countP_singleton,
      if_pos passes]
  have before : history.countPBefore Visit.passes (k + 1) ≤ history.countPBefore Visit.passes l :=
    List.countPBefore_mono (Nat.lt_of_not_le after)
  rw [gone, later.2] at before
  omega

theorem Meets.eq_of_passes (h : Meets history k visit i) (passes : visit.passes)
    (again : Meets history l other i) (passed : other.passes) : l = k :=
  Nat.le_antisymm (h.le_of_passes passes again) (again.le_of_passes passed h)

/-- Every item is met by the query that passes it. -/
theorem exists_meets (h : i < history.countP Visit.passes) :
    ∃ k visit, Meets history k visit i ∧ visit.passes := by
  have inside := List.findIdxNth_lt_length_of_lt_countP h
  exact ⟨_, _, ⟨List.getElem?_eq_getElem inside, List.countPBefore_findIdxNth_of_lt_countP h⟩,
    List.pos_findIdxNth_getElem⟩

end

/-! ### What a tape answers -/

namespace Tape

variable {t : Tape} {queries : List Query} {visit : Visit} {i k : Nat}

/-- The answer that is due when an item is next, or when none is. -/
def answerFor : Option Item → Answer
  | none => .ok none
  | some (.line text) => .ok (some text)
  | some (.failure reason) => .error reason

theorem answer_ask (t : Tape) (query : Query) : (t.ask query).1 = answerFor t.coming[0]? := by
  rcases t with ⟨_ | ⟨_ | _, _⟩, n⟩ <;> cases query <;> rfl

theorem coming_ask (t : Tape) (query : Query) : (t.ask query).2.coming =
    t.coming.drop (Visit.passes ⟨query, (t.ask query).1⟩).toNat := by
  rcases t with ⟨_ | ⟨_ | _, _⟩, n⟩ <;> cases query <;> rfl

theorem lineNumber_ask (t : Tape) (query : Query) : (t.ask query).2.lineNumber =
    t.lineNumber + (Visit.takes ⟨query, (t.ask query).1⟩).toNat := by
  rcases t with ⟨_ | ⟨_ | _, _⟩, n⟩ <;> cases query <;> rfl

theorem passes_ask_line (h : t.coming ≠ []) : Visit.passes ⟨.line, (t.ask .line).1⟩ := by
  rcases t with ⟨_ | ⟨_ | _, _⟩, n⟩
  · exact absurd rfl h
  · rfl
  · rfl

theorem queries_askAll (t : Tape) (queries : List Query) :
    (askAll ask t queries).1.map Visit.query = queries := by
  induction queries generalizing t with
  | nil => rfl
  | cons query more ih => rw [askAll_cons, List.map_cons, ih]

theorem lineNumber_askAll (t : Tape) (queries : List Query) :
    (askAll ask t queries).2.lineNumber =
      t.lineNumber + (askAll ask t queries).1.countP Visit.takes := by
  induction queries generalizing t with
  | nil => rfl
  | cons query more ih =>
      rw [askAll_cons, ih, lineNumber_ask, List.countP_cons]
      cases Visit.takes ⟨query, (t.ask query).1⟩
      · rfl
      · exact Nat.add_right_comm ..

/-- Every query is answered by the item that it meets. -/
theorem answer_of_meets (h : Meets (askAll ask t queries).1 k visit i) :
    visit.answer = answerFor t.coming[i]? := by
  induction queries generalizing t k i with
  | nil => cases h.1
  | cons query more ih =>
      rw [askAll_cons] at h
      cases k with
      | zero =>
          obtain ⟨rfl, rfl⟩ := meets_cons_zero.mp h
          exact answer_ask t query
      | succ k =>
          obtain ⟨j, rfl, later⟩ := meets_cons_succ.mp h
          rw [ih later, coming_ask, List.getElem?_drop]

/-- Every query for a line passes an item as long as there are any. -/
theorem lt_countP_passes (left : i < t.coming.length) (asked : i < queries.count .line) :
    i < (askAll ask t queries).1.countP Visit.passes := by
  induction queries generalizing t i with
  | nil => exact asked
  | cons query more ih =>
      have rest := coming_ask t query
      rw [askAll_cons, List.countP_cons]
      cases passes : Visit.passes ⟨query, (t.ask query).1⟩ with
      | false =>
          rw [passes] at rest
          cases query with
          | line =>
              have some : t.coming ≠ [] := List.ne_nil_of_length_pos (Nat.zero_lt_of_lt left)
              rw [passes_ask_line some] at passes
              cases passes
          | peek => exact ih (by rwa [rest]) asked
      | true =>
          rw [passes] at rest
          cases i with
          | zero => exact Nat.succ_pos _
          | succ i =>
              have left : i < (t.ask query).2.coming.length := by
                rw [rest, List.length_drop]
                exact Nat.lt_sub_of_add_lt left
              have asked : i < more.count .line := by
                rw [List.count_cons] at asked
                split at asked <;> omega
              exact Nat.succ_lt_succ (ih left asked)

section

variable {item : Item} (next : t.coming[i]? = some item)

include next

theorem answer_of_next (met : Meets (askAll ask t queries).1 k visit i) :
    visit.answer = answerFor (some item) := by
  rw [answer_of_meets met, next]

theorem exists_passes (asked : i < queries.count .line) :
    ∃ k visit, Meets (askAll ask t queries).1 k visit i ∧ visit.passes :=
  have inside := (List.getElem?_eq_some_iff.mp next).1
  exists_meets (lt_countP_passes inside asked)

end

theorem inTurn (t : Tape) (queries : List Query) :
    InTurn t.coming queries (askAll ask t queries).1 where
  asked := queries_askAll t queries
  failure := by
    intro i k reason visit next met
    have answer := answer_of_next next met
    refine ⟨answer, fun again => ?_⟩
    have passes := Visit.passes_iff.mpr (.inl ⟨reason, answer⟩)
    have passed := Visit.passes_iff.mpr (.inl ⟨reason, answer_of_next next again⟩)
    exact met.eq_of_passes passes again passed
  line := by
    intro i k text visit next met
    have answer := answer_of_next next met
    refine ⟨answer, fun taken _ _ again => ?_⟩
    exact met.le_of_passes (Visit.passes_iff.mpr (.inr ⟨taken, text, answer⟩)) again
  nothing := by
    intro i k visit behind met
    rw [answer_of_meets met, List.getElem?_eq_none behind]
    rfl
  reported := by
    intro i reason next asked
    obtain ⟨k, ⟨query, answer⟩, met, passes⟩ := exists_passes next asked
    obtain rfl := answer_of_next next met
    refine ⟨k, ⟨query, met⟩, ?_⟩
    rintro l ⟨other, again⟩
    exact met.eq_of_passes passes again (Visit.passes_iff.mpr (.inl ⟨reason, rfl⟩))
  taken := by
    intro i text next asked
    obtain ⟨k, ⟨query, answer⟩, met, passes⟩ := exists_passes next asked
    obtain rfl := answer_of_next next met
    obtain ⟨reason, failed⟩ | ⟨line, -⟩ := Visit.passes_iff.mp passes
    · cases failed
    · obtain rfl : query = .line := line
      exact ⟨k, met, fun l again => met.eq_of_passes passes again passes⟩

end Tape

/-- What a cursor answers is known from the stretches of its source: each of their items has its
turn, and the lines that were taken are counted. -/
theorem every_item_has_its_turn (source : Source) (queries : List Query) :
    ∃ history after, askAll ask (start source) queries = (history, after) ∧
      askAll Tape.ask ⟨(Stretches.ofSource source).items, 0⟩ queries = (history, after.tape) ∧
      InTurn (Stretches.ofSource source).items queries history ∧
      after.lineNumber = history.countP Visit.takes := by
  have same : (start source).tape = ⟨(Stretches.ofSource source).items, 0⟩ := by
    rw [← Source.items_eq]
    rfl
  have answers := askAll_tape (start source) queries
  have turns := Tape.inTurn (start source).tape queries
  have number := Tape.lineNumber_askAll (start source).tape queries
  rw [answers] at turns number
  rw [same] at answers turns
  exact ⟨_, _, rfl, answers, turns, number.trans (Nat.zero_add _)⟩

end Cursor

end DuplexRpc
