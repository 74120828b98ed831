import DuplexRpc.Proofs.Definition.Grammar

/-!
# Readers and rules

A reader takes as much off the front of a text as its rule allows, and it never takes a
part back. Each one is described by what it takes and by what cannot follow. On the
whole of a text every reader therefore agrees with its rule.
-/

namespace DuplexRpc

open Grammar

/-! ### Characters of a kind -/

section

variable {α : Type}

def Stops (p : α → Bool) (s : List α) : Prop := ∀ a ∈ s.head?, p a = false

theorem Stops.nil {p : α → Bool} : Stops p [] := by
  intro a ha
  cases ha

theorem Stops.cons {p : α → Bool} {a : α} (h : p a = false) (s : List α) : Stops p (a :: s) := by
  intro b hb
  obtain rfl := Option.some.inj hb
  exact h

/-- What is taken off the front while elements are of a kind, and what is left. -/
theorem span_eq_iff {p : α → Bool} {s taken rest : List α} :
    s.takeWhile p = taken ∧ s.dropWhile p = rest ↔
      s = taken ++ rest ∧ (∀ a ∈ taken, p a) ∧ Stops p rest := by
  constructor
  · rintro ⟨rfl, rfl⟩
    refine ⟨List.takeWhile_append_dropWhile.symm, List.all_eq_true.mp List.all_takeWhile, ?_⟩
    intro a ha
    have stops := List.head?_dropWhile_not p s
    rw [Option.mem_def.mp ha] at stops
    exact stops
  · rintro ⟨rfl, kind, stops⟩
    rw [List.takeWhile_append_of_pos kind, List.dropWhile_append_of_pos kind]
    cases rest with
    | nil => exact ⟨List.append_nil taken, rfl⟩
    | cons a rest =>
        have other : ¬ p a = true := by simp [stops a rfl]
        rw [List.takeWhile_cons_of_neg other, List.dropWhile_cons_of_neg other]
        exact ⟨List.append_nil taken, rfl⟩

end

namespace Statement

theorem isGap_iff {c : Char} : isGap c ↔ c = ' ' ∨ c = '\t' := by
  simp [isGap]

theorem not_isGap_of_isAlphanum {c : Char} (h : c.isAlphanum) : isGap c = false := by
  by_contra gap
  obtain rfl | rfl := isGap_iff.mp (by simpa using gap) <;> cases h

theorem isAlphanum_of_isLower {c : Char} (h : c.isLower) : c.isAlphanum := by
  change (c.isUpper || c.isLower || c.isDigit) = true
  rw [h, Bool.or_true, Bool.true_or]

end Statement

namespace Grammar

/-- Characters of a kind without separators end where separators begin. -/
theorem Ws.stops {p : Char → Bool} {gap : List Char} (h : Ws gap)
    (separators : p ' ' = false ∧ p '\t' = false) (s : List Char) : Stops p (gap ++ s) := by
  obtain ⟨nonempty, blank⟩ := h
  obtain ⟨c, gap, rfl⟩ := List.exists_cons_of_ne_nil nonempty
  refine Stops.cons ?_ _
  obtain rfl | rfl := blank c List.mem_cons_self
  · exact separators.1
  · exact separators.2

theorem OptWs.stops {p : Char → Bool} {gap s : List Char} (h : OptWs gap)
    (separators : p ' ' = false ∧ p '\t' = false) (stops : Stops p s) : Stops p (gap ++ s) := by
  by_cases nonempty : gap = []
  · rw [nonempty]
    exact stops
  · exact Ws.stops ⟨nonempty, h⟩ separators s

theorem Identifier.isAlphanum {name : String} (h : Identifier name) :
    ∀ c ∈ name.toList, c.isAlphanum := by
  obtain ⟨c, later, spelled, lower, kind⟩ := h
  rw [spelled]
  exact List.forall_mem_cons.mpr ⟨Statement.isAlphanum_of_isLower lower, kind⟩

/-- An identifier does not begin with a separator. -/
theorem Identifier.stops_isGap {name : String} (h : Identifier name) (s : List Char) :
    Stops Statement.isGap (name.toList ++ s) := by
  have kind := h.isAlphanum
  obtain ⟨c, later, spelled, -, -⟩ := h
  rw [spelled] at kind ⊢
  exact .cons (Statement.not_isGap_of_isAlphanum (kind c List.mem_cons_self)) _

end Grammar

namespace Statement

/-! ### Words -/

theorem word?_eq_some_iff {word : String} {s rest : List Char} :
    word? word s = some rest ↔ s = word.toList ++ rest := by
  rw [word?, List.isPrefixOf?_eq_some_iff_append_eq, eq_comm]

@[simp] theorem word?_append (word : String) (rest : List Char) :
    word? word (word.toList ++ rest) = some rest :=
  word?_eq_some_iff.mpr rfl

theorem skipGap_eq_iff {s rest : List Char} :
    skipGap s = rest ↔ ∃ gap, OptWs gap ∧ s = gap ++ rest ∧ Stops isGap rest := by
  constructor
  · intro h
    obtain ⟨whole, gap, stops⟩ := span_eq_iff.mp ⟨rfl, h⟩
    exact ⟨_, fun c hc => isGap_iff.mp (gap c hc), whole, stops⟩
  · rintro ⟨gap, blank, whole, stops⟩
    exact (span_eq_iff.mpr ⟨whole, fun c hc => isGap_iff.mpr (blank c hc), stops⟩).2

theorem skipGap_append {gap rest : List Char} (h : OptWs gap) (stops : Stops isGap rest) :
    skipGap (gap ++ rest) = rest :=
  skipGap_eq_iff.mpr ⟨gap, h, rfl, stops⟩

theorem gap?_eq_some_iff {s rest : List Char} :
    gap? s = some rest ↔ ∃ gap, Ws gap ∧ s = gap ++ rest ∧ Stops isGap rest := by
  constructor
  · intro h
    cases s with
    | nil => cases h
    | cons c s =>
        rw [gap?] at h
        split at h
        next first =>
          obtain ⟨gap, blank, rfl, stops⟩ := skipGap_eq_iff.mp (Option.some.inj h)
          refine ⟨c :: gap, ⟨List.cons_ne_nil _ _, ?_⟩, rfl, stops⟩
          exact List.forall_mem_cons.mpr ⟨isGap_iff.mp first, blank⟩
        next => cases h
  · rintro ⟨gap, ⟨nonempty, blank⟩, rfl, stops⟩
    obtain ⟨c, gap, rfl⟩ := List.exists_cons_of_ne_nil nonempty
    obtain ⟨first, later⟩ := List.forall_mem_cons.mp blank
    rw [List.cons_append, gap?, if_pos (isGap_iff.mpr first)]
    exact congrArg some (skipGap_eq_iff.mpr ⟨gap, later, rfl, stops⟩)

theorem gap?_append {gap rest : List Char} (h : Ws gap) (stops : Stops isGap rest) :
    gap? (gap ++ rest) = some rest :=
  gap?_eq_some_iff.mpr ⟨gap, h, rfl, stops⟩

theorem identifier?_eq_some_iff {s rest : List Char} {name : String} :
    identifier? s = some (name, rest) ↔
      Identifier name ∧ s = name.toList ++ rest ∧ Stops Char.isAlphanum rest := by
  constructor
  · intro h
    cases s with
    | nil => cases h
    | cons c s =>
        rw [identifier?] at h
        split at h
        next lower =>
          obtain ⟨rfl, rfl⟩ := Prod.mk.inj (Option.some.inj h)
          obtain ⟨whole, later, stops⟩ := span_eq_iff.mp ⟨rfl, rfl⟩
          refine ⟨⟨c, _, String.toList_ofList, lower, later⟩, ?_, stops⟩
          rw [String.toList_ofList, List.cons_append, ← whole]
        next => cases h
  · rintro ⟨⟨c, later, spelled, lower, kind⟩, rfl, stops⟩
    obtain ⟨taken, left⟩ := span_eq_iff.mpr ⟨rfl, kind, stops⟩
    rw [spelled, List.cons_append, identifier?, if_pos lower, taken, left, ← spelled,
      String.ofList_toList]

theorem identifier?_append {name : String} {rest : List Char} (h : Identifier name)
    (stops : Stops Char.isAlphanum rest) : identifier? (name.toList ++ rest) = some (name, rest) :=
  identifier?_eq_some_iff.mpr ⟨h, rfl, stops⟩

/-- A text that is an identifier as a whole. -/
theorem identifier?_eq_whole_iff {s : List Char} {name : String} :
    identifier? s = some (name, []) ↔ Identifier name ∧ s = name.toList := by
  rw [identifier?_eq_some_iff, List.append_nil]
  exact ⟨fun ⟨h, whole, _⟩ => ⟨h, whole⟩, fun ⟨h, whole⟩ => ⟨h, whole, .nil⟩⟩

/-! ### Procedure lines -/

def Plain (s : List Char) : Prop := ∀ c ∈ s, isParen c = false

theorem group?_eq_some_iff {s inner rest : List Char} :
    group? s = some (inner, rest) ↔ s = '(' :: (inner ++ ')' :: rest) ∧ Plain inner := by
  constructor
  · intro h
    unfold group? at h
    split at h
    next s =>
      split at h
      next after found =>
        obtain ⟨rfl, rfl⟩ := Prod.mk.inj (Option.some.inj h)
        obtain ⟨whole, plain, -⟩ := span_eq_iff.mp ⟨rfl, found⟩
        exact ⟨congrArg ('(' :: ·) whole, fun c hc => by simpa using plain c hc⟩
      next => cases h
    next => cases h
  · rintro ⟨rfl, plain⟩
    have closed : Stops (!isParen ·) (')' :: rest) := Stops.cons rfl _
    have kind : ∀ c ∈ inner, !isParen c := fun c hc => by simp [plain c hc]
    obtain ⟨taken, left⟩ := span_eq_iff.mpr ⟨rfl, kind, closed⟩
    simp only [group?, left, taken]

theorem group?_append {inner : List Char} (h : Plain inner) (rest : List Char) :
    group? ('(' :: (inner ++ ')' :: rest)) = some (inner, rest) :=
  group?_eq_some_iff.mpr ⟨rfl, h⟩

/-- The text of a group that may be missing. -/
def optGroup : Option (List Char) → List Char
  | some inner => '(' :: (inner ++ [')'])
  | none => []

/-- The texts of a signature. What stands inside its groups is left open. -/
def SpellsSignature (s : List Char) (signature : Signature) : Prop :=
  Identifier signature.name ∧ Plain signature.args ∧ (∀ rets ∈ signature.rets?, Plain rets) ∧
    ∃ before between, OptWs before ∧ OptWs between ∧
      s = signature.name.toList ++ (before ++
        '(' :: (signature.args ++ ')' :: (between ++ optGroup signature.rets?)))

theorem signature?_eq_some_iff {s : List Char} {signature : Signature} :
    signature? s = some (signature, []) ↔ SpellsSignature s signature := by
  constructor
  · intro h
    obtain ⟨⟨name, s₁⟩, read_name, later⟩ := Option.bind_eq_some_iff.mp h
    obtain ⟨⟨args, s₂⟩, read_args, last⟩ := Option.bind_eq_some_iff.mp later
    obtain ⟨name_id, rfl, -⟩ := identifier?_eq_some_iff.mp read_name
    obtain ⟨skipped, args_plain⟩ := group?_eq_some_iff.mp read_args
    obtain ⟨before, before_ws, rfl, -⟩ := skipGap_eq_iff.mp skipped
    dsimp only at last
    split at last
    next rets rest read_rets =>
      obtain ⟨rfl, rfl⟩ := Prod.mk.inj (Option.some.inj last)
      obtain ⟨skipped, rets_plain⟩ := group?_eq_some_iff.mp read_rets
      obtain ⟨between, between_ws, rfl, -⟩ := skipGap_eq_iff.mp skipped
      refine ⟨name_id, args_plain, ?_, before, between, before_ws, between_ws, rfl⟩
      rintro _ ⟨⟩
      exact rets_plain
    next =>
      obtain ⟨rfl, skipped⟩ := Prod.mk.inj (Option.some.inj last)
      obtain ⟨between, between_ws, rfl, -⟩ := skipGap_eq_iff.mp skipped
      refine ⟨name_id, args_plain, ?_, before, between, before_ws, between_ws, rfl⟩
      rintro _ ⟨⟩
  · obtain ⟨name, args, rets?⟩ := signature
    rintro ⟨name_id, args_plain, rets_plain, before, between, before_ws, between_ws, rfl⟩
    have opened : ∀ {p : Char → Bool} {s : List Char}, p '(' = false → Stops p ('(' :: s) :=
      fun closed => Stops.cons closed _
    rw [signature?, identifier?_append name_id (before_ws.stops ⟨rfl, rfl⟩ (opened rfl))]
    simp only [Option.bind_eq_bind, Option.bind_some]
    rw [skipGap_append before_ws (opened rfl), group?_append args_plain]
    simp only [Option.bind_some]
    cases rets? with
    | none =>
        rw [optGroup, skipGap_append between_ws .nil]
        rfl
    | some rets =>
        rw [optGroup, skipGap_append between_ws (opened rfl), group?_append (rets_plain rets rfl)]

/-- Behind the name of a procedure there is a group. -/
theorem SpellsSignature.read_name {s : List Char} {signature : Signature}
    (h : SpellsSignature s signature) :
    ∃ rest inner, identifier? s = some (signature.name, rest) ∧ skipGap rest = '(' :: inner := by
  obtain ⟨name_id, -, -, before, between, before_ws, -, rfl⟩ := h
  refine ⟨_, _, identifier?_append name_id ?_, skipGap_append before_ws (Stops.cons rfl _)⟩
  exact before_ws.stops ⟨rfl, rfl⟩ (Stops.cons rfl _)

/-- A signature does not begin with a separator. -/
theorem SpellsSignature.stops_isGap {s : List Char} {signature : Signature}
    (h : SpellsSignature s signature) : Stops isGap s := by
  obtain ⟨name_id, -, -, before, between, -, -, rfl⟩ := h
  exact name_id.stops_isGap _

theorem side?_eq_some_iff {s rest : List Char} {side : Side} :
    side? s = some (side, rest) ↔ s = side.word.toList ++ rest := by
  constructor
  · intro h
    obtain h | ⟨-, h⟩ := Option.or_eq_some_iff.mp h <;>
      obtain ⟨_, read, h⟩ := Option.map_eq_some_iff.mp h <;>
      obtain ⟨rfl, rfl⟩ := Prod.mk.inj h <;>
      exact word?_eq_some_iff.mp read
  · rintro rfl
    cases side with
    | server =>
        rw [side?, word?_append]
        rfl
    | client =>
        have other : word? Side.server.word (Side.client.word.toList ++ rest) = none := rfl
        rw [side?, other, word?_append]
        rfl

theorem onewaySignature?_eq_some_iff {s : List Char} {signature : Signature} :
    onewaySignature? s = some (signature, []) ↔
      ∃ gap body, Ws gap ∧ SpellsSignature body signature ∧
        s = "oneway".toList ++ (gap ++ body) := by
  constructor
  · intro h
    obtain ⟨s₁, read_word, later⟩ := Option.bind_eq_some_iff.mp h
    obtain ⟨body, read_gap, read⟩ := Option.bind_eq_some_iff.mp later
    obtain rfl := word?_eq_some_iff.mp read_word
    obtain ⟨gap, gap_ws, rfl, -⟩ := gap?_eq_some_iff.mp read_gap
    exact ⟨gap, body, gap_ws, signature?_eq_some_iff.mp read, rfl⟩
  · rintro ⟨gap, body, gap_ws, spelled, rfl⟩
    rw [onewaySignature?, word?_append]
    simp only [Option.bind_eq_bind, Option.bind_some]
    rw [gap?_append gap_ws spelled.stops_isGap]
    exact signature?_eq_some_iff.mpr spelled

/-- The word `oneway` and separators are never followed by a signature where a signature begins
with that word: the name is as long as it goes, and a group is next. -/
theorem onewaySignature?_eq_none {s : List Char} {signature : Signature}
    (h : SpellsSignature s signature) : onewaySignature? s = none := by
  obtain ⟨rest, inner, read_whole, group_next⟩ := h.read_name
  by_contra found
  obtain ⟨_, read⟩ := Option.ne_none_iff_exists'.mp found
  obtain ⟨s₁, read_word, later⟩ := Option.bind_eq_some_iff.mp read
  obtain ⟨s₂, read_gap, last⟩ := Option.bind_eq_some_iff.mp later
  obtain ⟨_, read_name, -⟩ := Option.bind_eq_some_iff.mp last
  obtain ⟨gap, gap_ws, rfl, stops⟩ := gap?_eq_some_iff.mp read_gap
  have oneway_id : Identifier "oneway" := ⟨'o', _, rfl, rfl, List.all_eq_true.mp rfl⟩
  rw [word?_eq_some_iff.mp read_word,
    identifier?_append oneway_id (gap_ws.stops ⟨rfl, rfl⟩ s₂)] at read_whole
  obtain ⟨-, rfl⟩ := Prod.mk.inj (Option.some.inj read_whole)
  rw [skipGap_append gap_ws.2 stops] at group_next
  rw [group_next] at read_name
  cases read_name

/-- The texts of a procedure line. What stands inside its groups is left open. -/
def SpellsHeader (line : List Char) (header : Header) : Prop :=
  ∃ gap mode body, Ws gap ∧ SpellsMode mode header.oneway ∧ SpellsSignature body header.signature ∧
    line = header.side.word.toList ++ (gap ++ (mode ++ body))

theorem header?_eq_some_iff {line : List Char} {header : Header} :
    header? line = some header ↔ SpellsHeader line header := by
  constructor
  · intro h
    obtain ⟨⟨side, s₁⟩, read_side, later⟩ := Option.bind_eq_some_iff.mp h
    obtain ⟨s₂, read_gap, last⟩ := Option.bind_eq_some_iff.mp later
    obtain rfl := side?_eq_some_iff.mp read_side
    obtain ⟨gap, gap_ws, rfl, -⟩ := gap?_eq_some_iff.mp read_gap
    split at last
    next signature rest read =>
      split at last
      next done =>
        obtain rfl := Option.some.inj last
        obtain rfl := List.isEmpty_iff.mp done
        obtain ⟨gap', body, gap'_ws, spelled, rfl⟩ := onewaySignature?_eq_some_iff.mp read
        refine ⟨gap, "oneway".toList ++ gap', body, gap_ws, .oneway gap'_ws, spelled, ?_⟩
        rw [List.append_assoc "oneway".toList]
      next => cases last
    next =>
      obtain ⟨⟨signature, rest⟩, read, done⟩ := Option.bind_eq_some_iff.mp last
      dsimp only at done
      split at done
      next empty =>
        obtain rfl := Option.some.inj done
        obtain rfl := List.isEmpty_iff.mp empty
        exact ⟨gap, [], s₂, gap_ws, .twoway, signature?_eq_some_iff.mp read, rfl⟩
      next => cases done
  · obtain ⟨side, oneway, signature⟩ := header
    rintro ⟨gap, mode, body, gap_ws, spelled_mode, spelled, rfl⟩
    have stops : Stops isGap (mode ++ body) := by
      cases spelled_mode with
      | oneway => exact Stops.cons rfl _
      | twoway => exact spelled.stops_isGap
    simp only [header?,
      side?_eq_some_iff.mpr (rfl : side.word.toList ++ (gap ++ (mode ++ body)) = _),
      Option.bind_eq_bind, Option.bind_some, gap?_append gap_ws stops]
    cases spelled_mode with
    | @oneway gap' gap'_ws =>
        have read : onewaySignature? ("oneway".toList ++ gap' ++ body) = some (signature, []) :=
          onewaySignature?_eq_some_iff.mpr
            ⟨gap', body, gap'_ws, spelled, List.append_assoc _ _ _⟩
        rw [read]
        rfl
    | twoway =>
        simp only [List.nil_append, onewaySignature?_eq_none spelled,
          signature?_eq_some_iff.mpr spelled]
        rfl

example : header? "server oneway f()".toList = some ⟨.server, true, "f", [], none⟩ := by decide

example : header? "server oneway ()".toList = some ⟨.server, false, "oneway", [], none⟩ := by decide

/-! ### Parameters -/

theorem param?_eq_some_iff {text : List Char} {name type : String} :
    param? text = some (name, type) ↔
      Identifier name ∧ type.toList ≠ [] ∧ (∀ c ∈ type.toList, c.isAlphanum) ∧
        ∃ lead gap trail, OptWs lead ∧ Ws gap ∧ OptWs trail ∧
          text = lead ++ (name.toList ++ (gap ++ (type.toList ++ trail))) := by
  constructor
  · intro h
    obtain ⟨⟨name, s₁⟩, read_name, later⟩ := Option.bind_eq_some_iff.mp h
    obtain ⟨s₂, read_gap, last⟩ := Option.bind_eq_some_iff.mp later
    obtain ⟨name_id, skipped, -⟩ := identifier?_eq_some_iff.mp read_name
    obtain ⟨lead, lead_ws, rfl, -⟩ := skipGap_eq_iff.mp skipped
    obtain ⟨gap, gap_ws, rfl, -⟩ := gap?_eq_some_iff.mp read_gap
    dsimp only at last
    split at last
    next => cases last
    next complete =>
      obtain ⟨rfl, rfl⟩ := Prod.mk.inj (Option.some.inj last)
      obtain ⟨whole, kind, -⟩ := span_eq_iff.mp ⟨rfl, (rfl : s₂.dropWhile Char.isAlphanum = _)⟩
      obtain ⟨nonempty, skipped⟩ : s₂.takeWhile Char.isAlphanum ≠ [] ∧
          skipGap (s₂.dropWhile Char.isAlphanum) = [] := by
        simpa using complete
      obtain ⟨trail, trail_ws, left, -⟩ := skipGap_eq_iff.mp skipped
      rw [String.toList_ofList]
      refine ⟨name_id, nonempty, kind, lead, gap, trail, lead_ws, gap_ws, trail_ws, ?_⟩
      rw [← List.append_nil trail, ← left, ← whole]
  · rintro ⟨name_id, nonempty, kind, lead, gap, trail, lead_ws, gap_ws, trail_ws, rfl⟩
    have type_stops : Stops isGap (type.toList ++ trail) := by
      obtain ⟨c, later, spelled⟩ := List.exists_cons_of_ne_nil nonempty
      rw [spelled]
      exact Stops.cons (not_isGap_of_isAlphanum (kind c (by simp [spelled]))) _
    have trail_stops : Stops Char.isAlphanum trail := by
      rw [← List.append_nil trail]
      exact trail_ws.stops ⟨rfl, rfl⟩ Stops.nil
    have skip_trail : skipGap trail = [] :=
      skipGap_eq_iff.mpr ⟨trail, trail_ws, (List.append_nil trail).symm, .nil⟩
    obtain ⟨taken, left⟩ := span_eq_iff.mpr ⟨rfl, kind, trail_stops⟩
    rw [param?, skipGap_append lead_ws (name_id.stops_isGap _),
      identifier?_append name_id (gap_ws.stops ⟨rfl, rfl⟩ _)]
    simp only [Option.bind_eq_bind, Option.bind_some, gap?_append gap_ws type_stops, taken, left,
      skip_trail]
    simp [nonempty]

/-! ### Type lines -/

theorem word?_eq_none {word : String} {s : List Char} {c : Char} (h : c ∈ word.toList)
    (absent : c ∉ s) : word? word s = none := by
  by_contra found
  obtain ⟨rest, read⟩ := Option.ne_none_iff_exists'.mp found
  rw [word?_eq_some_iff.mp read] at absent
  exact absent (List.mem_append_left rest h)

theorem slice?_eq_some_iff {s : List Char} {expr : TypeExpr} :
    slice? s = some (expr, []) ↔
      ∃ element, Identifier element ∧ s = "[]".toList ++ element.toList ∧
        .slice element = expr := by
  constructor
  · intro h
    obtain ⟨s₁, read_word, later⟩ := Option.bind_eq_some_iff.mp h
    obtain ⟨⟨element, rest⟩, read, last⟩ := Option.bind_eq_some_iff.mp later
    obtain ⟨rfl, rfl⟩ := Prod.mk.inj (Option.some.inj last)
    obtain ⟨element_id, rfl⟩ := identifier?_eq_whole_iff.mp read
    exact ⟨element, element_id, word?_eq_some_iff.mp read_word, rfl⟩
  · rintro ⟨element, element_id, rfl, rfl⟩
    rw [slice?, word?_append]
    simp [identifier?_eq_whole_iff.mpr ⟨element_id, rfl⟩]

theorem map?_eq_some_iff {s : List Char} {expr : TypeExpr} :
    map? s = some (expr, []) ↔ ∃ key value, Identifier key ∧ Identifier value ∧
      s = "map[".toList ++ (key.toList ++ ("]".toList ++ value.toList)) ∧
        .map key value = expr := by
  constructor
  · intro h
    obtain ⟨s₁, read_word, h₁⟩ := Option.bind_eq_some_iff.mp h
    obtain ⟨⟨key, s₂⟩, read_key, h₂⟩ := Option.bind_eq_some_iff.mp h₁
    obtain ⟨s₃, read_close, h₃⟩ := Option.bind_eq_some_iff.mp h₂
    obtain ⟨⟨value, rest⟩, read_value, h₄⟩ := Option.bind_eq_some_iff.mp h₃
    obtain ⟨rfl, rfl⟩ := Prod.mk.inj (Option.some.inj h₄)
    obtain ⟨key_id, rfl, -⟩ := identifier?_eq_some_iff.mp read_key
    obtain ⟨value_id, rfl⟩ := identifier?_eq_whole_iff.mp read_value
    rw [word?_eq_some_iff.mp read_word, word?_eq_some_iff.mp read_close]
    exact ⟨key, value, key_id, value_id, rfl, rfl⟩
  · rintro ⟨key, value, key_id, value_id, rfl, rfl⟩
    have closed : Stops Char.isAlphanum ("]".toList ++ value.toList) := Stops.cons rfl _
    rw [map?, word?_append]
    simp only [Option.bind_eq_bind, Option.bind_some, identifier?_append key_id closed,
      word?_append, identifier?_eq_whole_iff.mpr ⟨value_id, rfl⟩]

/-- Only what is in a text can be read off it. -/
theorem struct?_eq_none {s : List Char} (h : '\x7b' ∉ s) : struct? s = none := by
  by_contra found
  obtain ⟨_, read⟩ := Option.ne_none_iff_exists'.mp found
  obtain ⟨s₁, read_word, later⟩ := Option.bind_eq_some_iff.mp read
  obtain ⟨s₂, read_brace, -⟩ := Option.bind_eq_some_iff.mp later
  obtain ⟨gap, -, rfl, -⟩ := skipGap_eq_iff.mp (word?_eq_some_iff.mp read_brace)
  rw [word?_eq_some_iff.mp read_word] at h
  simp at h

theorem typeExpr?_of_spells {s : List Char} {expr : TypeExpr} (h : SpellsTypeExpr s expr) :
    typeExpr? s = some (expr, []) := by
  cases h with
  | @simple target target_id =>
      have absent : ∀ c : Char, c.isAlphanum = false → c ∉ target.toList := by
        intro c other present
        rw [target_id.isAlphanum c present] at other
        cases other
      have no_slice : slice? target.toList = none := by
        rw [slice?, word?_eq_none (show '[' ∈ "[]".toList by decide) (absent _ rfl)]
        rfl
      have no_map : map? target.toList = none := by
        rw [map?, word?_eq_none (show '[' ∈ "map[".toList by decide) (absent _ rfl)]
        rfl
      rw [typeExpr?, no_slice, no_map, struct?_eq_none (absent _ rfl),
        identifier?_eq_whole_iff.mpr ⟨target_id, rfl⟩]
      rfl
  | @slice element element_id =>
      rw [typeExpr?, slice?_eq_some_iff.mpr ⟨element, element_id, rfl, rfl⟩]
      rfl
  | @map key value key_id value_id =>
      have read := map?_eq_some_iff.mpr ⟨key, value, key_id, value_id, rfl, rfl⟩
      have no_slice :
          slice? ("map[".toList ++ (key.toList ++ ("]".toList ++ value.toList))) = none := rfl
      simp only [List.append_assoc]
      rw [typeExpr?, no_slice, read]
      rfl
  | @struct gap gap_ws =>
      have no_slice : slice? ("struct".toList ++ (gap ++ "\x7b".toList)) = none := rfl
      have no_map : map? ("struct".toList ++ (gap ++ "\x7b".toList)) = none := rfl
      have read : struct? ("struct".toList ++ (gap ++ "\x7b".toList)) = some (.struct, []) := by
        have brace : Stops isGap "\x7b".toList := Stops.cons rfl []
        rw [struct?, word?_append]
        simp only [Option.bind_eq_bind, Option.bind_some]
        rw [skipGap_append gap_ws brace]
        rfl
      rw [List.append_assoc, typeExpr?, no_slice, no_map, read]
      rfl

/-- What follows the brace of a struct type is not looked at, so the rule is met by other types. -/
theorem spells_of_typeExpr? {s : List Char} {expr : TypeExpr} (h : typeExpr? s = some (expr, []))
    (other : expr ≠ .struct) : SpellsTypeExpr s expr := by
  obtain read | ⟨-, h⟩ := Option.or_eq_some_iff.mp h
  · obtain ⟨element, element_id, rfl, rfl⟩ := slice?_eq_some_iff.mp read
    exact .slice element_id
  obtain read | ⟨-, h⟩ := Option.or_eq_some_iff.mp h
  · obtain ⟨key, value, key_id, value_id, rfl, rfl⟩ := map?_eq_some_iff.mp read
    simpa only [List.append_assoc] using SpellsTypeExpr.map key_id value_id
  obtain read | ⟨-, h⟩ := Option.or_eq_some_iff.mp h
  · obtain ⟨s₁, -, later⟩ := Option.bind_eq_some_iff.mp read
    obtain ⟨s₂, -, last⟩ := Option.bind_eq_some_iff.mp later
    exact absurd (Prod.mk.inj (Option.some.inj last)).1.symm other
  · obtain ⟨⟨target, rest⟩, read, last⟩ := Option.map_eq_some_iff.mp h
    obtain ⟨rfl, rfl⟩ := Prod.mk.inj last
    obtain ⟨target_id, rfl⟩ := identifier?_eq_whole_iff.mp read
    exact .simple target_id

/-- A type expression does not begin with a separator. -/
theorem stops_isGap_of_spellsTypeExpr {s : List Char} {expr : TypeExpr}
    (h : SpellsTypeExpr s expr) : Stops isGap s := by
  cases h with
  | @simple target target_id =>
      rw [← List.append_nil target.toList]
      exact target_id.stops_isGap []
  | slice | map | struct => exact Stops.cons rfl _

theorem typeLine?_append {gap between s : List Char} {name : String} {expr : TypeExpr}
    (gap_ws : Ws gap) (name_id : Identifier name) (between_ws : Ws between) (stops : Stops isGap s)
    (read : typeExpr? s = some (expr, [])) :
    typeLine? ("type".toList ++ gap ++ name.toList ++ between ++ s) = some (name, expr) := by
  simp only [List.append_assoc]
  rw [typeLine?, word?_append]
  simp only [Option.bind_eq_bind, Option.bind_some]
  rw [gap?_append gap_ws (name_id.stops_isGap _)]
  simp only [Option.bind_some]
  rw [identifier?_append name_id (between_ws.stops ⟨rfl, rfl⟩ s)]
  simp only [Option.bind_some]
  rw [gap?_append between_ws stops]
  simp only [Option.bind_some, read]
  rfl

theorem typeLine?_of_spells {line : List Char} {name : String} {expr : TypeExpr}
    (h : SpellsType line name expr) : typeLine? line = some (name, expr) := by
  obtain ⟨gap_ws, name_id, between_ws, spelled⟩ := h
  exact typeLine?_append gap_ws name_id between_ws (stops_isGap_of_spellsTypeExpr spelled)
    (typeExpr?_of_spells spelled)

theorem exists_typeExpr?_of_typeLine? {line : List Char} {name : String} {expr : TypeExpr}
    (h : typeLine? line = some (name, expr)) :
    ∃ gap between s, Ws gap ∧ Identifier name ∧ Ws between ∧
      line = "type".toList ++ gap ++ name.toList ++ between ++ s ∧
      typeExpr? s = some (expr, []) := by
  obtain ⟨s₁, read_word, h₁⟩ := Option.bind_eq_some_iff.mp h
  obtain ⟨s₂, read_gap, h₂⟩ := Option.bind_eq_some_iff.mp h₁
  obtain ⟨⟨name, s₃⟩, read_name, h₃⟩ := Option.bind_eq_some_iff.mp h₂
  obtain ⟨s₄, read_between, h₄⟩ := Option.bind_eq_some_iff.mp h₃
  obtain ⟨⟨expr, rest⟩, read_expr, h₅⟩ := Option.bind_eq_some_iff.mp h₄
  dsimp only at h₅
  split at h₅
  next done =>
    obtain ⟨rfl, rfl⟩ := Prod.mk.inj (Option.some.inj h₅)
    obtain rfl := List.isEmpty_iff.mp done
    obtain rfl := word?_eq_some_iff.mp read_word
    obtain ⟨gap, gap_ws, rfl, -⟩ := gap?_eq_some_iff.mp read_gap
    obtain ⟨name_id, rfl, -⟩ := identifier?_eq_some_iff.mp read_name
    obtain ⟨between, between_ws, rfl, -⟩ := gap?_eq_some_iff.mp read_between
    exact ⟨gap, between, s₄, gap_ws, name_id, between_ws,
      by simp only [List.append_assoc], read_expr⟩
  next => cases h₅

theorem spells_of_typeLine? {line : List Char} {name : String} {expr : TypeExpr}
    (h : typeLine? line = some (name, expr)) (other : expr ≠ .struct) :
    SpellsType line name expr := by
  obtain ⟨_, _, _, gap_ws, name_id, between_ws, rfl, read⟩ := exists_typeExpr?_of_typeLine? h
  exact .type gap_ws name_id between_ws (spells_of_typeExpr? read other)

/-! ### Name lines -/

theorem nameLine?_eq_some_iff {line : List Char} {name : String} :
    nameLine? line = some name ↔ SpellsName line name := by
  constructor
  · intro h
    obtain ⟨s₁, read_word, h₁⟩ := Option.bind_eq_some_iff.mp h
    obtain ⟨s₂, read_gap, h₂⟩ := Option.bind_eq_some_iff.mp h₁
    obtain ⟨⟨name, rest⟩, read_name, h₃⟩ := Option.bind_eq_some_iff.mp h₂
    dsimp only at h₃
    split at h₃
    next done =>
      obtain rfl := Option.some.inj h₃
      obtain rfl := List.isEmpty_iff.mp done
      obtain rfl := word?_eq_some_iff.mp read_word
      obtain ⟨gap, gap_ws, rfl, -⟩ := gap?_eq_some_iff.mp read_gap
      obtain ⟨name_id, rfl⟩ := identifier?_eq_whole_iff.mp read_name
      simpa only [List.append_assoc] using SpellsName.name gap_ws name_id
    next => cases h₃
  · rintro ⟨gap_ws, name_id⟩
    have stops := name_id.stops_isGap []
    rw [List.append_nil] at stops
    rw [List.append_assoc, nameLine?, word?_append]
    simp only [Option.bind_eq_bind, Option.bind_some]
    rw [gap?_append gap_ws stops]
    simp only [Option.bind_some, identifier?_eq_whole_iff.mpr ⟨name_id, rfl⟩]
    rfl

end Statement

end DuplexRpc
