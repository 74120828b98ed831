import DuplexRpc.Proofs.Definition.Lines
import DuplexRpc.Proofs.Definition.Meaning
import Mathlib.Data.Set.Subsingleton

/-!
# The language of definitions

The texts that are definitions are those that the grammar spells with consistent
declarations, and the service that comes out holds exactly what they declare. The lines
that have been judged form a valid body that defines the service so far; one more line
keeps this, and it is refused when no valid body goes on with it.
-/

namespace DuplexRpc

open Grammar Statement

/-! ### One reading -/

/-- The lines of a text can be read in one way only. -/
theorem Grammar.Spells.unique (text : String) : {d | Spells (lines text) d}.Subsingleton := by
  intro d (hd : Spells (lines text) d) e (he : Spells (lines text) e)
  rw [lines] at hd he
  generalize cutLines text.toList = cut at hd he
  cases cut with
  | nil => cases hd
  | cons first rest =>
      rw [List.map_cons] at hd he
      cases hd with
      | file first_spelled rest_spelled =>
          cases he with
          | file first_spelled' rest_spelled' =>
              have name := nameLine?_eq_some_iff.mpr first_spelled
              rw [nameLine?_eq_some_iff.mpr first_spelled'] at name
              obtain rfl := Option.some.inj name
              rw [List.right_unique_forall₂' rightUnique_spellsLine
                (List.forall₂_map_left_iff.mp rest_spelled)
                (List.forall₂_map_left_iff.mp rest_spelled')]

/-! ### One line -/

namespace Grammar.Defines

variable {name : String} {body : List Line} {service : Service}

/-- A line without a procedure leaves the procedures of the body as they are. -/
theorem procedures_snoc (h : Defines ⟨name, body⟩ service) {l : Line} (other : l.kind ≠ .procedure)
    (side : Side) (key : String) (p : Procedure) :
    (service.procedures side).find? key = some p ↔ Declares (body ++ [l]) side key p := by
  rw [h.procedures, declares_snoc, or_iff_left]
  rintro ⟨p, rfl, -⟩
  exact other rfl

/-- A line without a type leaves the types of the body as they are. -/
theorem types_snoc (h : Defines ⟨name, body⟩ service) (valid : Valid body) {l : Line}
    (admissible : l.Admissible body) (other : l.typeName? = none) (key : String) (type : DataType) :
    service.types.find? key = some type ↔
      key ∈ typeNames (body ++ [l]) ∧ Means (body ++ [l]) key type := by
  have names : typeNames (body ++ [l]) = typeNames body := by simp [typeNames, other]
  rw [h.types, names]
  refine and_congr_right fun declared => ⟨fun means => means.append [l], fun means => ?_⟩
  exact means.of_snoc valid admissible (.inr declared)

theorem blank (h : Defines ⟨name, body⟩ service) (valid : Valid body) :
    Defines ⟨name, body ++ [.blank]⟩ service where
  name := h.name
  procedures := h.procedures_snoc (by decide)
  types := h.types_snoc valid trivial rfl

theorem addProcedure (h : Defines ⟨name, body⟩ service) (valid : Valid body)
    {p : ProcedureStatement} (admissible : (Line.procedure p).Admissible body) :
    Defines ⟨name, body ++ [.procedure p]⟩
      (service.addProcedure (p.procedure (body.length + 2))) where
  name := by
    rw [← h.name, Service.addProcedure]
    split <;> rfl
  procedures := by
    intro side key q
    have free : (service.procedures p.side).find? p.name = none := by
      by_contra taken
      exact admissible.2 (h.contains_iff.mp (Option.isSome_iff_ne_none.mpr taken))
    rw [Service.procedures_addProcedure, declares_snoc, ← h.procedures]
    by_cases own : p.side = side ∧ p.name = key
    · obtain ⟨rfl, rfl⟩ := own
      simp [ProcedureStatement.procedure, free]
    · have earlier : ¬ ∃ other, Line.procedure p = .procedure other ∧ other.side = side ∧
          other.name = key ∧ other.procedure (body.length + 2) = q := by
        rintro ⟨_, ⟨⟩, at_side, named, -⟩
        exact own ⟨at_side, named⟩
      rw [or_iff_left earlier]
      split
      next at_side =>
        rw [Table.find?_insert, if_neg fun named => own ⟨at_side.symm, named.symm⟩]
      next => rfl
  types := by
    have same : (service.addProcedure (p.procedure (body.length + 2))).types = service.types := by
      rw [Service.addProcedure]
      split <;> rfl
    rw [same]
    exact h.types_snoc valid admissible rfl

theorem resolved_eq_ok_iff (h : Defines ⟨name, body⟩ service) (valid : Valid body)
    {role : TypeRole} {key : String} {type : DataType} :
    DataType.ofExpr.resolved service role key = .ok type ↔ Means body key type := by
  rw [← h.lookupType_eq_some_iff valid, DataType.ofExpr.resolved]
  split
  next found => rw [found]; simp
  next missing => rw [missing]; simp

/-- A type expression comes to the meaning of its name behind the line that declares it. -/
theorem ofExpr_eq_ok_iff (h : Defines ⟨name, body⟩ service) (valid : Valid body) {key : String}
    {expr : Statement.TypeExpr} (admissible : (Line.type key expr).Admissible body)
    {type : DataType} : DataType.ofExpr service key expr = .ok type ↔
      Means (body ++ [.type key expr]) key type := by
  have last : Line.type key expr ∈ body ++ [.type key expr] := mem_snoc.mpr (.inr rfl)
  have only : ∀ {other}, Line.type key other ∈ body ++ [.type key expr] → other = expr := by
    intro other line
    obtain line | same := mem_snoc.mp line
    · exact absurd (.inr (mem_typeNames.mpr ⟨other, line⟩)) admissible.1
    · exact (Line.type.inj same).2
  have means_of : ∀ {target type}, target ∈ targets expr →
      Means (body ++ [.type key expr]) target type → Means body target type :=
    fun listed means => means.of_snoc valid admissible (admissible.2.2 _ listed)
  constructor
  · intro found
    cases expr with
    | simple target =>
        obtain ⟨t, target_found, rest⟩ := bind_eq_ok.mp found
        obtain rfl := Except.ok.inj rest
        exact .simple last (((h.resolved_eq_ok_iff valid).mp target_found).append _)
    | slice element =>
        obtain ⟨t, element_found, rest⟩ := bind_eq_ok.mp found
        obtain rfl := Except.ok.inj rest
        exact .slice last (((h.resolved_eq_ok_iff valid).mp element_found).append _)
    | map first second =>
        obtain ⟨k, key_found, rest⟩ := bind_eq_ok.mp found
        obtain ⟨v, value_found, rest⟩ := bind_eq_ok.mp rest
        obtain rfl := Except.ok.inj rest
        exact .map last (((h.resolved_eq_ok_iff valid).mp key_found).append _)
          (((h.resolved_eq_ok_iff valid).mp value_found).append _)
    | struct => cases found
  · intro means
    cases means with
    | builtin b => exact absurd (.inl ⟨b, rfl⟩) admissible.1
    | simple line target_means =>
        obtain rfl := only line
        have target_means := means_of (by simp [targets]) target_means
        exact bind_eq_ok.mpr ⟨_, (h.resolved_eq_ok_iff valid).mpr target_means, rfl⟩
    | slice line element_means =>
        obtain rfl := only line
        have element_means := means_of (by simp [targets]) element_means
        exact bind_eq_ok.mpr ⟨_, (h.resolved_eq_ok_iff valid).mpr element_means, rfl⟩
    | map line key_means value_means =>
        obtain rfl := only line
        have key_means := means_of (by simp [targets]) key_means
        have value_means := means_of (by simp [targets]) value_means
        exact bind_eq_ok.mpr ⟨_, (h.resolved_eq_ok_iff valid).mpr key_means,
          bind_eq_ok.mpr ⟨_, (h.resolved_eq_ok_iff valid).mpr value_means, rfl⟩⟩

theorem addType (h : Defines ⟨name, body⟩ service) (valid : Valid body) {key : String}
    {expr : Statement.TypeExpr} (admissible : (Line.type key expr).Admissible body)
    {type : DataType} (means : DataType.ofExpr service key expr = .ok type) :
    Defines ⟨name, body ++ [.type key expr]⟩ (service.addType type) where
  name := h.name
  procedures := by
    intro side key p
    rw [Service.procedures_addType]
    exact h.procedures_snoc (by simp [Line.kind]) side key p
  types := by
    intro other t
    have named := ((h.ofExpr_eq_ok_iff valid admissible).mp means).name_eq
    have names : typeNames (body ++ [.type key expr]) = typeNames body ++ [key] := by
      simp [typeNames, Line.typeName?]
    rw [Service.addType, Table.find?_insert, named, names, List.mem_append, List.mem_singleton]
    by_cases same : other = key
    · subst same
      rw [if_pos rfl, ← h.ofExpr_eq_ok_iff valid admissible, means]
      simp
    · rw [if_neg same, or_iff_left same, h.types]
      refine and_congr_right fun declared => ⟨fun means => means.append _, fun means => ?_⟩
      exact means.of_snoc valid admissible (.inr declared)

/-- A type expression that comes to something refers to known types. -/
theorem known_of_ofExpr (h : Defines ⟨name, body⟩ service) (valid : Valid body) {key : String}
    {expr : Statement.TypeExpr} {type : DataType}
    (found : DataType.ofExpr service key expr = .ok type) :
    expr ≠ .struct ∧ ∀ target ∈ targets expr, Known body target := by
  have known : ∀ {role target t}, DataType.ofExpr.resolved service role target = .ok t →
      Known body target := fun found => ((h.resolved_eq_ok_iff valid).mp found).known
  cases expr with
  | simple target =>
      obtain ⟨t, target_found, -⟩ := bind_eq_ok.mp found
      exact ⟨by simp, by simpa [targets] using known target_found⟩
  | slice element =>
      obtain ⟨t, element_found, -⟩ := bind_eq_ok.mp found
      exact ⟨by simp, by simpa [targets] using known element_found⟩
  | map first second =>
      obtain ⟨k, key_found, rest⟩ := bind_eq_ok.mp found
      obtain ⟨v, value_found, -⟩ := bind_eq_ok.mp rest
      exact ⟨by simp, by simpa [targets] using ⟨known key_found, known value_found⟩⟩
  | struct => cases found

theorem exists_ofExpr (h : Defines ⟨name, body⟩ service) (valid : Valid body) {key : String}
    {expr : Statement.TypeExpr} (admissible : (Line.type key expr).Admissible body) :
    ∃ type, DataType.ofExpr service key expr = .ok type := by
  have declared : key ∈ typeNames (body ++ [.type key expr]) :=
    mem_typeNames.mpr ⟨expr, mem_snoc.mpr (.inr rfl)⟩
  obtain ⟨type, means⟩ := (valid.snoc admissible).exists_means (.inr declared)
  exact ⟨type, (h.ofExpr_eq_ok_iff valid admissible).mpr means⟩

/-- A line that is admissible has something to add. -/
theorem exists_snoc (h : Defines ⟨name, body⟩ service) (valid : Valid body) {l : Line}
    (admissible : l.Admissible body) : ∃ next, Defines ⟨name, body ++ [l]⟩ next := by
  cases l with
  | blank => exact ⟨service, h.blank valid⟩
  | procedure p => exact ⟨_, h.addProcedure valid admissible⟩
  | type key expr =>
      obtain ⟨type, means⟩ := h.exists_ofExpr valid admissible
      exact ⟨_, h.addType valid admissible means⟩

end Grammar.Defines

theorem Grammar.defines_named (name : String) : Defines ⟨name, []⟩ (Service.named name) where
  name := rfl
  procedures := by
    intro side key p
    cases side <;> simp [Service.named, Service.procedures, Declares]
  types := by simp [Service.named, typeNames]

/-- Every valid body defines a service. -/
theorem Grammar.Valid.exists_defines {body : List Line} (h : Valid body) (name : String) :
    ∃ service, Defines ⟨name, body⟩ service := by
  induction body using List.reverseRecOn with
  | nil => exact ⟨_, defines_named name⟩
  | append_singleton body l ih =>
      obtain ⟨service, defines⟩ := ih h.of_append
      exact defines.exists_snoc h.of_append h.admissible

namespace Service

variable {name : String} {body : List Line} {s t : Service}

/-- A line is judged by whether it is admissible behind the lines before it. -/
theorem judgeLine_eq_ok_iff (h : Defines ⟨name, body⟩ s) (valid : Valid body) {line : List Char} :
    s.judgeLine (body.length + 2) line = .ok t ↔ ∃ l, SpellsLine (Text.trimEnd line) l ∧
      l.Admissible body ∧ Defines ⟨name, body ++ [l]⟩ t := by
  constructor
  · intro judged
    unfold judgeLine at judged
    split at judged
    next kind =>
      obtain rfl := Except.ok.inj judged
      refine ⟨.blank, ?_, trivial, h.blank valid⟩
      rw [LineKind.trimEnd_of_blank kind]
      exact .blank
    next =>
      obtain ⟨p, read, judged⟩ := bind_eq_ok.mp judged
      obtain ⟨free, judged⟩ := guard_eq_ok.mp judged
      obtain rfl := Except.ok.inj judged
      obtain ⟨statement, spelled, consistent, rfl⟩ := Procedure.ofLine_eq_ok_iff.mp read
      have admissible : (Line.procedure statement).Admissible body :=
        ⟨consistent, fun declared => free (h.contains_iff.mpr declared)⟩
      exact ⟨.procedure statement, .procedure spelled, admissible, h.addProcedure valid admissible⟩
    next =>
      obtain ⟨type, read, judged⟩ := bind_eq_ok.mp judged
      obtain rfl := Except.ok.inj judged
      obtain ⟨key, expr, spelled, own, free, means⟩ := DataType.ofLine_eq_ok_iff.mp read
      have unknown : ¬ Known body key := by
        rintro (builtin | declared)
        · exact ofName?_eq_none_iff.mp own builtin
        · exact (h.find?_eq_none_iff valid).mp free declared
      have admissible : (Line.type key expr).Admissible body :=
        ⟨unknown, h.known_of_ofExpr valid means⟩
      exact ⟨.type key expr, .type spelled, admissible, h.addType valid admissible means⟩
    next => cases judged
  · rintro ⟨l, spelled, admissible, defines⟩
    unfold judgeLine
    rw [LineKind.of_spells spelled]
    cases l with
    | blank => rw [(h.blank valid).unique defines, Line.kind]
    | procedure statement =>
        obtain rfl := (h.addProcedure valid admissible).unique defines
        have free : ¬ (s.procedures statement.side).contains statement.name :=
          fun taken => admissible.2 (h.contains_iff.mp taken)
        have read : Procedure.ofLine line (body.length + 2) = .ok _ :=
          Procedure.ofLine_eq_ok_iff.mpr ⟨statement, spelled.of_procedure, admissible.1, rfl⟩
        exact bind_eq_ok.mpr ⟨_, read, guard_eq_ok.mpr ⟨free, rfl⟩⟩
    | type key expr =>
        obtain ⟨type, means⟩ := h.exists_ofExpr valid admissible
        obtain rfl := (h.addType valid admissible means).unique defines
        have own := ofName?_eq_none_iff.mpr fun builtin => admissible.1 (.inl builtin)
        have free := (h.find?_eq_none_iff valid).mpr fun declared => admissible.1 (.inr declared)
        have read := DataType.ofLine_eq_ok_iff.mpr ⟨key, expr, spelled.of_type, own, free, means⟩
        exact bind_eq_ok.mpr ⟨_, read, rfl⟩

/-- The lines of a body are judged by whether a valid body goes on with them. -/
theorem judgeItems_eq_ok_iff (h : Defines ⟨name, body⟩ s) (valid : Valid body)
    {rest : List (List Char)} :
    s.judgeItems (body.length + 2) (rest.map fun line => .line (String.ofList line)) = .ok t ↔
      ∃ later, List.Forall₂ SpellsLine (rest.map Text.trimEnd) later ∧ Valid (body ++ later) ∧
        Defines ⟨name, body ++ later⟩ t := by
  induction rest generalizing body s with
  | nil =>
      constructor
      · intro judged
        obtain rfl := Except.ok.inj judged
        exact ⟨[], .nil, by rwa [List.append_nil], by rwa [List.append_nil]⟩
      · rintro ⟨later, spelled, -, defines⟩
        obtain rfl := List.forall₂_nil_left_iff.mp spelled
        rw [List.append_nil] at defines
        rw [h.unique defines]
        rfl
  | cons line rest ih =>
      have next : ∀ l, body.length + 2 + 1 = (body ++ [l]).length + 2 := by
        intro l
        rw [List.length_append, List.length_singleton]
      rw [List.map_cons, judgeItems, String.toList_ofList]
      constructor
      · intro judged
        split at judged
        next first =>
          obtain ⟨l, spelled, admissible, defines⟩ := (judgeLine_eq_ok_iff h valid).mp first
          rw [next l] at judged
          obtain ⟨later, all, whole⟩ := (ih defines (valid.snoc admissible)).mp judged
          rw [← List.append_cons] at whole
          exact ⟨l :: later, .cons spelled all, whole⟩
        next => cases judged
      · rintro ⟨_, lines, whole, defines⟩
        obtain ⟨l, later, spelled, all, rfl⟩ := List.forall₂_cons_left_iff.mp lines
        rw [List.append_cons] at whole defines
        have admissible := whole.of_append.admissible
        obtain ⟨s', defined⟩ := h.exists_snoc valid admissible
        have first := (judgeLine_eq_ok_iff h valid).mpr ⟨l, spelled, admissible, defined⟩
        rw [first]
        dsimp only
        rw [next l]
        exact (ih defined whole.of_append).mpr ⟨later, all, whole, defines⟩

theorem ofItems_eq_ok_iff {lines : List (List Char)} :
    ofItems (lines.map fun line => .line (String.ofList line)) = .ok s ↔
      ∃ d, Spells (lines.map Text.trimEnd) d ∧ Valid d.body ∧ Defines d s := by
  cases lines with
  | nil =>
      constructor
      · intro h
        cases h
      · rintro ⟨d, spelled, -⟩
        cases spelled
  | cons first rest =>
      rw [List.map_cons, ofItems, String.toList_ofList]
      constructor
      · intro h
        split at h
        next name read =>
          obtain ⟨body, all, valid, defines⟩ :=
            (judgeItems_eq_ok_iff (defines_named name) .nil).mp h
          exact ⟨⟨name, body⟩, .file (nameLine?_eq_some_iff.mp read) all, valid, defines⟩
        next => cases h
      · rintro ⟨d, spelled, valid, defines⟩
        cases spelled with
        | file first_spelled rest_spelled =>
            rw [nameLine?_eq_some_iff.mpr first_spelled]
            exact (judgeItems_eq_ok_iff (defines_named _) .nil).mpr
              ⟨_, rest_spelled, valid, defines⟩

theorem parseText_eq_ok_iff {text : String} : parseText text = .ok s ↔
    ∃ d, Spells (lines text) d ∧ Valid d.body ∧ Defines d s := by
  have read := parseText_ofList text.toList
  rw [String.ofList_toList] at read
  rw [read]
  exact ofItems_eq_ok_iff

/-- Parsing succeeds on exactly the definitions: the texts whose lines the grammar spells with
valid declarations. There is one way to read the lines, and the service that comes out holds
exactly what they declare, each under its name and with the number of its line. -/
theorem parsing_is_reading_by_the_grammar (text : String) :
    {d | Spells (lines text) d}.Subsingleton ∧
      ((∃ service, parseText text = .ok service) ↔ ∃ d, Spells (lines text) d ∧ Valid d.body) ∧
      ∀ service, parseText text = .ok service ↔
        ∃ d, Spells (lines text) d ∧ Valid d.body ∧ Defines d service := by
  refine ⟨Spells.unique text, ?_, fun service => parseText_eq_ok_iff⟩
  constructor
  · rintro ⟨service, h⟩
    obtain ⟨d, spelled, valid, -⟩ := parseText_eq_ok_iff.mp h
    exact ⟨d, spelled, valid⟩
  · rintro ⟨d, spelled, valid⟩
    obtain ⟨service, defines⟩ := valid.exists_defines d.name
    exact ⟨service, parseText_eq_ok_iff.mpr ⟨d, spelled, valid, defines⟩⟩

example : (parseText "name x\r\nserver oneway ()\n\ntype ids []uint64 ").toOption.isSome := by
  decide +kernel

example : (parseText "name x\ntype ids []ids").toOption.isNone := by decide +kernel

end Service

end DuplexRpc
