import DuplexRpc.Proofs.Definition
import DuplexRpc.Proofs.Definition.Readers

/-!
# What one line says

Groups of parameters, procedure lines and type lines are judged by their rules and by
what is required of each by itself. The kind that is told by the first word of a line is
the kind of the statement that the line spells, so no other rule could have fitted.
-/

namespace DuplexRpc

open Grammar Statement

/-- A name that is added last is distinct from those before it when it is none of them. -/
theorem nodup_snoc {names : List String} {name : String} :
    (names ++ [name]).Nodup ↔ names.Nodup ∧ name ∉ names := by
  rw [List.nodup_append]
  constructor
  · rintro ⟨distinct, -, other⟩
    exact ⟨distinct, fun listed => other name listed name (List.mem_singleton_self name) rfl⟩
  · rintro ⟨distinct, free⟩
    refine ⟨distinct, List.nodup_cons.mpr ⟨List.not_mem_nil, List.nodup_nil⟩, ?_⟩
    rintro _ listed _ last rfl
    obtain rfl := List.mem_singleton.mp last
    exact free listed

/-! ### Pieces between commas -/

theorem splitCommas_of_notMem {s : List Char} (h : ',' ∉ s) : splitCommas s = [s] := by
  induction s with
  | nil => rfl
  | cons c s ih =>
      obtain ⟨other, absent⟩ := not_or.mp (mt List.mem_cons.mpr h)
      rw [splitCommas, if_neg (Ne.symm other), ih absent]

theorem splitCommas_append {s : List Char} (h : ',' ∉ s) (rest : List Char) :
    splitCommas (s ++ ',' :: rest) = s :: splitCommas rest := by
  induction s with
  | nil => rfl
  | cons c s ih =>
      obtain ⟨other, absent⟩ := not_or.mp (mt List.mem_cons.mpr h)
      rw [List.cons_append, splitCommas, if_neg (Ne.symm other), ih absent]

/-- A text is one piece, or its first piece ends at a comma. -/
theorem splitCommas_cases (s : List Char) :
    splitCommas s = [s] ∨
      ∃ piece rest, s = piece ++ ',' :: rest ∧ splitCommas s = piece :: splitCommas rest := by
  by_cases comma : ',' ∈ s
  · obtain ⟨piece, rest, rfl, absent⟩ := List.eq_append_cons_of_mem comma
    exact .inr ⟨piece, rest, rfl, splitCommas_append absent rest⟩
  · exact .inl (splitCommas_of_notMem comma)

/-! ### Parameters -/

namespace Grammar

theorem Builtin.isAlphanum_name (b : Builtin) :
    b.name.toList ≠ [] ∧ ∀ c ∈ b.name.toList, c.isAlphanum := by
  cases b <;> exact ⟨List.cons_ne_nil _ _, List.all_eq_true.mp rfl⟩

theorem spellsParam_iff {text : List Char} {p : Param} :
    SpellsParam text p ↔ ∃ name type b, param? text = some (name, type) ∧
      (Builtin.ofName? type).filter Builtin.isParamType = some b ∧ ⟨name, .builtin b⟩ = p := by
  constructor
  · rintro ⟨lead_ws, name_id, gap_ws, isParamType, trail_ws⟩
    rename_i lead gap trail name type
    obtain ⟨nonempty, kind⟩ := Builtin.isAlphanum_name type
    refine ⟨name, type.name, type, param?_eq_some_iff.mpr ⟨name_id, nonempty, kind, lead, gap,
      trail, lead_ws, gap_ws, trail_ws, by simp only [List.append_assoc]⟩, ?_, rfl⟩
    rw [Builtin.ofName?_name, Option.filter_some, if_pos isParamType]
  · rintro ⟨name, type, b, read, found, rfl⟩
    obtain ⟨known, isParamType⟩ := Option.filter_eq_some_iff.mp found
    obtain rfl := Builtin.ofName?_eq_some_iff.mp known
    obtain ⟨name_id, -, -, lead, gap, trail, lead_ws, gap_ws, trail_ws, rfl⟩ :=
      param?_eq_some_iff.mp read
    simpa only [List.append_assoc] using
      SpellsParam.param lead_ws name_id gap_ws isParamType trail_ws

/-- A parameter is spelled with letters, digits and separators alone. -/
theorem SpellsParam.chars {text : List Char} {p : Param} (h : SpellsParam text p) :
    ∀ c ∈ text, isGap c ∨ c.isAlphanum := by
  obtain ⟨lead_ws, name_id, gap_ws, -, trail_ws⟩ := h
  intro c hc
  simp only [List.mem_append] at hc
  rcases hc with (((hc | hc) | hc) | hc) | hc
  · exact .inl (isGap_iff.mpr (lead_ws c hc))
  · exact .inr (name_id.isAlphanum c hc)
  · exact .inl (isGap_iff.mpr (gap_ws.2 c hc))
  · exact .inr ((Builtin.isAlphanum_name _).2 c hc)
  · exact .inl (isGap_iff.mpr (trail_ws c hc))

theorem SpellsParam.notMem {text : List Char} {p : Param} (h : SpellsParam text p) {c : Char}
    (other : isGap c = false ∧ c.isAlphanum = false) : c ∉ text := by
  intro hc
  rcases h.chars c hc with kind | kind
  · exact absurd kind (by simp [other.1])
  · exact absurd kind (by simp [other.2])

theorem forall₂_splitCommas_iff {s : List Char} {ps : List Param} :
    List.Forall₂ SpellsParam (splitCommas s) ps ↔ SpellsParams s ps := by
  constructor
  · intro h
    induction ps generalizing s with
    | nil =>
        have none := List.forall₂_nil_right_iff.mp h
        obtain one | ⟨piece, rest, -, more⟩ := splitCommas_cases s
        · rw [one] at none
          cases none
        · rw [more] at none
          cases none
    | cons p ps ih =>
        obtain one | ⟨piece, rest, rfl, more⟩ := splitCommas_cases s
        · rw [one] at h
          obtain ⟨head, tail⟩ := List.forall₂_cons.mp h
          obtain rfl := List.forall₂_nil_left_iff.mp tail
          exact .last head
        · rw [more] at h
          obtain ⟨head, tail⟩ := List.forall₂_cons.mp h
          exact .more head (ih tail)
  · intro h
    induction h with
    | last head =>
        rw [splitCommas_of_notMem (head.notMem ⟨rfl, rfl⟩)]
        exact .cons head .nil
    | more head tail ih =>
        rw [splitCommas_append (head.notMem ⟨rfl, rfl⟩)]
        exact .cons head ih

theorem SpellsParam.plain {text : List Char} {p : Param} (h : SpellsParam text p) : Plain text := by
  intro c hc
  by_contra paren
  have shape : c = '(' ∨ c = ')' := by simpa [isParen, or_iff_not_imp_left] using paren
  obtain rfl | rfl := shape
  · exact h.notMem ⟨rfl, rfl⟩ hc
  · exact h.notMem ⟨rfl, rfl⟩ hc

theorem not_spellsParams_nil {ps : List Param} : ¬ SpellsParams [] ps := by
  intro h
  obtain ⟨p, -, spelled, -, -⟩ := List.forall₂_cons_left_iff.mp (forall₂_splitCommas_iff.mpr h)
  obtain ⟨_, _, _, read, -⟩ := spellsParam_iff.mp spelled
  cases read

theorem SpellsGroup.plain {s : List Char} {ps : List Param} (h : SpellsGroup s ps) : Plain s := by
  cases h with
  | empty => exact fun c hc => absurd hc List.not_mem_nil
  | params params =>
      induction params with
      | last head => exact head.plain
      | more head tail ih =>
          intro c hc
          rcases List.mem_append.mp hc with hc | hc
          · exact head.plain c hc
          · rcases List.mem_cons.mp hc with rfl | hc
            · rfl
            · exact ih c hc

end Grammar

namespace Param

theorem judge_eq_ok_iff {position : Nat} {earlier : List Param} {text : List Char} {p : Param} :
    judge position earlier text = .ok p ↔ SpellsParam text p ∧ p.name ∉ earlier.map (·.name) := by
  have taken : ∀ name : String,
      earlier.any (·.name == name) = true ↔ name ∈ earlier.map (·.name) := by
    simp [List.any_eq_true]
  constructor
  · intro h
    unfold judge at h
    split at h
    next => cases h
    next name type read =>
      split at h
      next => cases h
      next b found =>
        split at h
        next => cases h
        next free =>
          obtain rfl := Except.ok.inj h
          refine ⟨spellsParam_iff.mpr ⟨name, type, b, read, found, rfl⟩, ?_⟩
          exact fun listed => free ((taken name).mpr listed)
  · rintro ⟨spelled, free⟩
    obtain ⟨name, type, b, read, found, rfl⟩ := spellsParam_iff.mp spelled
    simp only [judge, read, found]
    rw [if_neg fun listed => free ((taken name).mp listed)]

theorem judgeAll_eq_ok_iff {position : Nat} {earlier params : List Param} {texts : List (List Char)}
    (distinct : (earlier.map (·.name)).Nodup) :
    judgeAll position earlier texts = .ok params ↔
      ∃ new, List.Forall₂ SpellsParam texts new ∧ earlier ++ new = params ∧
        (params.map (·.name)).Nodup := by
  induction texts generalizing position earlier with
  | nil =>
      constructor
      · intro h
        obtain rfl := Except.ok.inj h
        exact ⟨[], .nil, List.append_nil earlier, distinct⟩
      · rintro ⟨new, spelled, rfl, -⟩
        obtain rfl := List.forall₂_nil_left_iff.mp spelled
        rw [List.append_nil]
        rfl
  | cons text more ih =>
      have snoc : ∀ p : Param, ((earlier ++ [p]).map (·.name)).Nodup ↔
          p.name ∉ earlier.map (·.name) := by
        intro p
        rw [List.map_append, List.map_singleton, nodup_snoc, and_iff_right distinct]
      rw [judgeAll, bind_eq_ok]
      constructor
      · rintro ⟨p, hp, later⟩
        obtain ⟨spelled, free⟩ := judge_eq_ok_iff.mp hp
        obtain ⟨new, rest, rfl, whole⟩ := (ih ((snoc p).mpr free)).mp later
        exact ⟨p :: new, .cons spelled rest, List.append_cons earlier p new, whole⟩
      · rintro ⟨_, all, rfl, whole⟩
        obtain ⟨p, new, spelled, rest, rfl⟩ := List.forall₂_cons_left_iff.mp all
        have shape := List.append_cons earlier p new
        have first : ((earlier ++ [p]).map (·.name)).Nodup := by
          rw [shape, List.map_append] at whole
          exact (List.nodup_append.mp whole).1
        exact ⟨p, judge_eq_ok_iff.mpr ⟨spelled, (snoc p).mp first⟩,
          (ih first).mpr ⟨new, rest, shape.symm, whole⟩⟩

theorem ofGroup_eq_ok_iff {group : List Char} {params : List Param} :
    ofGroup group = .ok params ↔ SpellsGroup group params ∧ (params.map (·.name)).Nodup := by
  unfold ofGroup
  split
  next empty =>
    obtain rfl := List.isEmpty_iff.mp empty
    constructor
    · intro h
      obtain rfl := Except.ok.inj h
      exact ⟨.empty, List.nodup_nil⟩
    · rintro ⟨spelled, -⟩
      cases spelled with
      | empty => rfl
      | params params => exact absurd params not_spellsParams_nil
  next nonempty =>
    have start : (([] : List Param).map (·.name)).Nodup := List.nodup_nil
    rw [judgeAll_eq_ok_iff start]
    constructor
    · rintro ⟨_, spelled, rfl, distinct⟩
      exact ⟨.params (forall₂_splitCommas_iff.mp spelled), distinct⟩
    · rintro ⟨spelled, distinct⟩
      cases spelled with
      | empty => exact absurd rfl nonempty
      | params spelled =>
          exact ⟨params, forall₂_splitCommas_iff.mpr spelled, rfl, distinct⟩

end Param

/-! ### Procedure lines -/

namespace Grammar

theorem spellsReturns_iff {s : List Char} {rets? : Option (List Param)} :
    SpellsReturns s rets? ↔ ∃ text?, optGroup text? = s ∧ Option.Rel SpellsGroup text? rets? := by
  constructor
  · rintro (spelled | _)
    · exact ⟨some _, rfl, .some spelled⟩
    · exact ⟨none, rfl, .none⟩
  · rintro ⟨_, rfl, spelled | _⟩
    · exact .group spelled
    · exact .missing

/-- A procedure line is spelled when its texts are, and so is what stands inside its groups. -/
theorem spellsProcedure_iff {line : List Char} {p : ProcedureStatement} :
    SpellsProcedure line p ↔ ∃ args rets?,
      SpellsHeader line ⟨p.side, p.oneway, p.name, args, rets?⟩ ∧
        SpellsGroup args p.args ∧ Option.Rel SpellsGroup rets? p.rets? := by
  constructor
  · rintro ⟨gap_ws, mode_spelled, name_id, before_ws, args_spelled, between_ws, rets_spelled⟩
    obtain ⟨text?, rfl, related⟩ := spellsReturns_iff.mp rets_spelled
    have rets_plain : ∀ rets ∈ text?, Plain rets := by
      rintro rets ⟨⟩
      cases related with
      | some spelled => exact spelled.plain
    refine ⟨_, text?, ⟨_, _, _, gap_ws, mode_spelled, ⟨name_id, args_spelled.plain, rets_plain,
      _, _, before_ws, between_ws, rfl⟩, ?_⟩, args_spelled, related⟩
    simp only [List.append_assoc, List.cons_append]
  · obtain ⟨side, oneway, name, argList, retList?⟩ := p
    rintro ⟨args, text?, ⟨gap, mode, _, gap_ws, mode_spelled, ⟨name_id, -, -, before, between,
      before_ws, between_ws, rfl⟩, rfl⟩, args_spelled, rets_spelled⟩
    have spelled : SpellsProcedure _ ⟨side, oneway, name, argList, retList?⟩ :=
      .procedure gap_ws mode_spelled name_id before_ws args_spelled between_ws
        (spellsReturns_iff.mpr ⟨text?, rfl, rets_spelled⟩)
    simpa only [List.append_assoc, List.cons_append] using spelled

end Grammar

/-- A procedure line declares what it spells when that is valid by itself. -/
theorem Procedure.ofLine_eq_ok_iff {line : List Char} {number : Nat} {p : Procedure} :
    ofLine line number = .ok p ↔ ∃ statement, SpellsProcedure (Text.trimEnd line) statement ∧
      statement.Valid ∧ statement.procedure number = p := by
  constructor
  · intro h
    unfold ofLine at h
    split at h
    next => cases h
    next side oneway name args rets? read =>
      obtain ⟨answered, h⟩ := guard_eq_ok.mp h
      obtain ⟨argList, read_args, h⟩ := bind_eq_ok.mp h
      obtain ⟨retList, read_rets, h⟩ := bind_eq_ok.mp h
      obtain ⟨returns, h⟩ := guard_eq_ok.mp h
      obtain rfl := Except.ok.inj h
      obtain ⟨args_spelled, args_distinct⟩ := Param.ofGroup_eq_ok_iff.mp read_args
      obtain ⟨rets_spelled, rets_distinct⟩ := Param.ofGroup_eq_ok_iff.mp read_rets
      have spelled := header?_eq_some_iff.mp read
      cases rets? with
      | none =>
          obtain rfl := Except.ok.inj read_rets
          refine ⟨⟨side, oneway, name, argList, none⟩, ?_, ?_, rfl⟩
          · exact spellsProcedure_iff.mpr ⟨args, none, spelled, args_spelled, .none⟩
          · exact ⟨fun _ => rfl, by simp, args_distinct, by simp⟩
      | some rets =>
          refine ⟨⟨side, oneway, name, argList, some retList⟩, ?_, ?_, rfl⟩
          · exact spellsProcedure_iff.mpr
              ⟨args, some rets, spelled, args_spelled, .some rets_spelled⟩
          · refine ⟨fun oneway => absurd oneway (by simpa using answered), ?_, args_distinct, ?_⟩
            · rintro ⟨⟩
              exact returns rfl
            · rintro _ ⟨⟩
              exact rets_distinct
  · rintro ⟨⟨side, oneway, name, argList, retList?⟩, spelled, valid, rfl⟩
    obtain ⟨args, rets?, header_spelled, args_spelled, related⟩ := spellsProcedure_iff.mp spelled
    have read := header?_eq_some_iff.mpr header_spelled
    have read_args := Param.ofGroup_eq_ok_iff.mpr ⟨args_spelled, valid.args⟩
    rw [ofLine, read]
    cases related with
    | none =>
        refine guard_eq_ok.mpr ⟨by simp, bind_eq_ok.mpr ⟨_, read_args, ?_⟩⟩
        refine bind_eq_ok.mpr ⟨[], rfl, guard_eq_ok.mpr ⟨by simp, rfl⟩⟩
    | @some rets retList rets_spelled =>
        have answered : oneway = false := by
          by_contra h
          exact absurd (valid.oneway (by simpa using h)) (by simp)
        have nonempty : retList ≠ [] := fun empty => valid.returns (congrArg some empty)
        have read_rets := Param.ofGroup_eq_ok_iff.mpr ⟨rets_spelled, valid.rets _ rfl⟩
        refine guard_eq_ok.mpr ⟨by simp [answered], bind_eq_ok.mpr ⟨_, read_args, ?_⟩⟩
        refine bind_eq_ok.mpr ⟨_, read_rets, guard_eq_ok.mpr ⟨by simp [nonempty], rfl⟩⟩

/-! ### Type lines -/

/-- A type line declares what it spells when the name is free and its types are known. -/
theorem DataType.ofLine_eq_ok_iff {service : Service} {line : List Char} {t : DataType} :
    ofLine service line = .ok t ↔ ∃ name expr, SpellsType (Text.trimEnd line) name expr ∧
      Builtin.ofName? name = none ∧ service.types.find? name = none ∧
        ofExpr service name expr = .ok t := by
  have free : ∀ name, service.types.contains name = false ↔ service.types.find? name = none :=
    fun name => Option.isSome_eq_false_iff.trans Option.isNone_iff_eq_none
  constructor
  · intro h
    unfold ofLine at h
    split at h
    next => cases h
    next name expr read =>
      split at h
      next => cases h
      next own =>
        split at h
        next => cases h
        next fresh =>
          have other : expr ≠ .struct := by
            rintro rfl
            cases h
          exact ⟨name, expr, spells_of_typeLine? read other, by simpa using own,
            (free name).mp (by simpa using fresh), h⟩
  · rintro ⟨name, expr, spelled, own, fresh, h⟩
    simp only [ofLine, typeLine?_of_spells spelled]
    rw [if_neg (by simp [own]), if_neg (by simp [(free name).mpr fresh])]
    exact h

/-! ### Kinds of line -/

/-- A line is what is left of it when its end is trimmed, and white space behind. -/
theorem Text.exists_eq_trimEnd_append (line : List Char) :
    ∃ blanks, line = trimEnd line ++ blanks ∧ ∀ c ∈ blanks, isBlank c := by
  refine ⟨(line.reverse.takeWhile isBlank).reverse, ?_, ?_⟩
  · rw [trimEnd, ← List.reverse_append, List.takeWhile_append_dropWhile, List.reverse_reverse]
  · intro c hc
    exact List.all_eq_true.mp List.all_takeWhile c (List.mem_reverse.mp hc)

theorem Grammar.SpellsLine.of_procedure {s : List Char} {p : ProcedureStatement}
    (h : SpellsLine s (.procedure p)) : SpellsProcedure s p := by
  cases h with
  | procedure spelled => exact spelled

theorem Grammar.SpellsLine.of_type {s : List Char} {name : String} {expr : TypeExpr}
    (h : SpellsLine s (.type name expr)) : SpellsType s name expr := by
  cases h with
  | type spelled => exact spelled

def Grammar.Line.kind : Line → LineKind
  | .blank => .blank
  | .procedure _ => .procedure
  | .type .. => .type

/-- The first word of a line ends at the first separator. -/
theorem LineKind.of_append {word : String} {gap : List Char}
    (visible : ∃ c ∈ word.toList, Text.isBlank c = false)
    (plain : ∀ c ∈ word.toList, !isGap c) (gap_ws : Ws gap) (rest : List Char) :
    of (word.toList ++ (gap ++ rest)) =
      if word = Side.server.word ∨ word = Side.client.word then .procedure
      else if word = "type" then .type
      else .unknown := by
  have stops : Stops (!isGap ·) (gap ++ rest) := gap_ws.stops ⟨rfl, rfl⟩ rest
  have taken := (span_eq_iff.mpr ⟨rfl, plain, stops⟩).1
  have notBlank : ¬ (word.toList ++ (gap ++ rest)).all Text.isBlank := by
    obtain ⟨c, hc, seen⟩ := visible
    intro all
    exact absurd (List.all_eq_true.mp all c (List.mem_append_left _ hc)) (by simp [seen])
  simp only [of, if_neg notBlank, taken, String.ofList_toList]

/-- The kind of a line is the kind of what it spells. -/
theorem LineKind.of_spells {line : List Char} {l : Line} (h : SpellsLine (Text.trimEnd line) l) :
    of line = l.kind := by
  obtain ⟨blanks, whole, blank⟩ := Text.exists_eq_trimEnd_append line
  generalize Text.trimEnd line = text at h whole
  subst whole
  cases h with
  | blank => rw [List.nil_append, of, if_pos (List.all_eq_true.mpr blank), Line.kind]
  | procedure spelled =>
      rename_i statement
      obtain ⟨_, _, ⟨gap, mode, body, gap_ws, -, -, rfl⟩, -⟩ := spellsProcedure_iff.mp spelled
      have visible : ∃ c ∈ statement.side.word.toList, Text.isBlank c = false := by
        cases statement.side <;> exact ⟨'e', by decide, rfl⟩
      have plain : ∀ c ∈ statement.side.word.toList, !isGap c := by
        cases statement.side <;> exact List.all_eq_true.mp rfl
      simp only [List.append_assoc]
      rw [of_append visible plain gap_ws]
      cases statement.side <;> rfl
  | type spelled =>
      obtain ⟨gap_ws⟩ := spelled
      simp only [List.append_assoc]
      rw [of_append ⟨'t', by decide, rfl⟩ (List.all_eq_true.mp rfl) gap_ws]
      rfl

theorem LineKind.trimEnd_of_blank {line : List Char} (h : of line = .blank) :
    Text.trimEnd line = [] := by
  unfold of at h
  split at h
  next blank =>
    rw [← List.nil_append line, Text.trimEnd_append_of_blank (List.all_eq_true.mp blank)]
    rfl
  next =>
    dsimp only at h
    split at h
    · cases h
    · split at h <;> cases h

/-! ### One reading -/

namespace Grammar

theorem rightUnique_spellsParam : Relator.RightUnique SpellsParam := by
  intro text p q hp hq
  obtain ⟨name, type, b, read, found, rfl⟩ := spellsParam_iff.mp hp
  obtain ⟨name', type', b', read', found', rfl⟩ := spellsParam_iff.mp hq
  rw [read] at read'
  obtain ⟨rfl, rfl⟩ := Prod.mk.inj (Option.some.inj read')
  rw [found] at found'
  obtain rfl := Option.some.inj found'
  rfl

theorem rightUnique_spellsGroup : Relator.RightUnique SpellsGroup := by
  intro s ps qs hp hq
  cases hp with
  | empty =>
      cases hq with
      | empty => rfl
      | params params => exact absurd params not_spellsParams_nil
  | params params =>
      cases hq with
      | empty => exact absurd params not_spellsParams_nil
      | params params' =>
          exact List.right_unique_forall₂' rightUnique_spellsParam
            (forall₂_splitCommas_iff.mpr params) (forall₂_splitCommas_iff.mpr params')

theorem rightUnique_spellsProcedure : Relator.RightUnique SpellsProcedure := by
  intro line p q hp hq
  obtain ⟨args, rets?, header, hargs, hrets⟩ := spellsProcedure_iff.mp hp
  obtain ⟨args', rets?', header', hargs', hrets'⟩ := spellsProcedure_iff.mp hq
  have read := header?_eq_some_iff.mpr header
  rw [header?_eq_some_iff.mpr header'] at read
  cases p
  cases q
  obtain ⟨rfl, rfl, rfl, rfl, rfl⟩ : _ ∧ _ ∧ _ ∧ _ ∧ _ := by simpa using read
  dsimp only at hargs hargs' hrets hrets'
  obtain rfl := rightUnique_spellsGroup hargs hargs'
  cases hrets with
  | none =>
      cases hrets'
      rfl
  | some spelled =>
      cases hrets' with
      | some spelled' =>
          obtain rfl := rightUnique_spellsGroup spelled spelled'
          rfl

/-- A line is the spelling of one statement only. -/
theorem rightUnique_spellsLine :
    Relator.RightUnique fun line => SpellsLine (Text.trimEnd line) := by
  intro line l m hl hm
  have kinds : l.kind = m.kind := (LineKind.of_spells hl).symm.trans (LineKind.of_spells hm)
  generalize Text.trimEnd line = text at hl hm
  cases hl with
  | blank =>
      cases hm with
      | blank => rfl
      | procedure | type => cases kinds
  | procedure spelled =>
      cases hm with
      | procedure spelled' => rw [rightUnique_spellsProcedure spelled spelled']
      | blank | type => cases kinds
  | type spelled =>
      cases hm with
      | type spelled' =>
          have read := typeLine?_of_spells spelled
          rw [typeLine?_of_spells spelled'] at read
          obtain ⟨rfl, rfl⟩ := Prod.mk.inj (Option.some.inj read)
          rfl
      | blank | procedure => cases kinds

end Grammar

end DuplexRpc
