import DuplexRpc.Proofs.Definition.Faults
import DuplexRpc.Proofs.Definition.LineByLine
import DuplexRpc.Proofs.Definition.Words

/-!
# Which lines are refused

The first word of a line tells by which rule it is judged. By each rule the faults of a line
are ranked, the shape of the line before what it says, and what it says by itself before what
it says over the lines before it. A line without faults adds one procedure or one type, or it is
blank and adds nothing.
-/

namespace DuplexRpc

open Grammar Statement

namespace Grammar

def quote (text : String) : String := "\"" ++ text ++ "\""

/-! ### Procedures -/

/-- What is wrong with a procedure line behind the lines of a service, by rank: that it has not the
shape of one; that it is oneway and has a group of return values, whatever the group holds; what is
wrong in its arguments; what is wrong in its return values; that there are none in their group; and
that its side has a procedure of the name. -/
inductive ProcedureFault (s : Service) (line : List Char) : Nat → FaultKind → String → Prop
  | malformed (shapeless : ∀ header, ¬ SpellsHeader (Text.trimEnd line) header) :
      ProcedureFault s line 0 .invalidProcedureDefinition
        (quote (String.ofList (Text.trim line)))
  | returnsOfOneway {header : Header} (spelled : SpellsHeader (Text.trimEnd line) header)
      (oneway : header.oneway = true) (group : header.signature.rets? ≠ none) :
      ProcedureFault s line 1 .unexpectedReturnParameters (quote header.signature.name)
  | argument {header : Header} {kind : FaultKind} {detail : String}
      (spelled : SpellsHeader (Text.trimEnd line) header)
      (offence : FirstOffence header.signature.args kind detail) :
      ProcedureFault s line 2 kind detail
  | returned {header : Header} {rets : List Char} {kind : FaultKind} {detail : String}
      (spelled : SpellsHeader (Text.trimEnd line) header)
      (group : header.signature.rets? = some rets) (offence : FirstOffence rets kind detail) :
      ProcedureFault s line 3 kind detail
  | emptyReturns {header : Header} (spelled : SpellsHeader (Text.trimEnd line) header)
      (group : header.signature.rets? = some []) :
      ProcedureFault s line 4 .emptyReturnGroup (quote header.signature.name)
  | duplicate {header : Header} (spelled : SpellsHeader (Text.trimEnd line) header)
      (taken : (s.procedures header.side).find? header.signature.name ≠ none) :
      ProcedureFault s line 5 .duplicateProcedureIdentifier (quote header.signature.name)

/-! ### Types -/

/-- `type-statement`, where anything may follow the brace of a struct type. -/
inductive SpellsTypeHead : List Char → String → TypeExpr → Prop
  | whole {line : List Char} {name : String} {expr : TypeExpr}
      (spelled : SpellsType line name expr) : SpellsTypeHead line name expr
  | struct {opening : List Char} {name : String} (spelled : SpellsType opening name .struct)
      (rest : List Char) : SpellsTypeHead (opening ++ rest) name .struct

/-- What a name stands for within a service: a builtin type, or else the declared type. -/
inductive Stands (s : Service) : String → DataType → Prop
  | builtin (b : Builtin) : Stands s b.name (.builtin b)
  | declared {name : String} {type : DataType} (other : ∀ b : Builtin, b.name ≠ name)
      (found : s.types.find? name = some type) : Stands s name type

inductive Builds (s : Service) (name : String) : TypeExpr → DataType → Prop
  | simple {target : String} {type : DataType} (target_stands : Stands s target type) :
      Builds s name (.simple target) (.simple name type)
  | slice {element : String} {type : DataType} (element_stands : Stands s element type) :
      Builds s name (.slice element) (.slice name type)
  | map {key value : String} {keyType valueType : DataType} (key_stands : Stands s key keyType)
      (value_stands : Stands s value valueType) :
      Builds s name (.map key value) (.map name keyType valueType)

def Unknown (s : Service) (name : String) : Prop := ∀ type, ¬ Stands s name type

/-- What is wrong with a type expression, by rank: that it is that of a struct type, or that a name
in it stands for no type, the keys of a map before its values. -/
inductive ExprFault (s : Service) : TypeExpr → Nat → FaultKind → String → Prop
  | target {target : String} (unknown : Unknown s target) :
      ExprFault s (.simple target) 0 .invalidTypeDefinition ("unknown type `" ++ target ++ "`")
  | element {element : String} (unknown : Unknown s element) :
      ExprFault s (.slice element) 0 .invalidTypeDefinition
        ("unknown element type `" ++ element ++ "`")
  | key {key value : String} (unknown : Unknown s key) :
      ExprFault s (.map key value) 0 .invalidTypeDefinition ("unknown map key type `" ++ key ++ "`")
  | value {key value : String} (unknown : Unknown s value) :
      ExprFault s (.map key value) 1 .invalidTypeDefinition
        ("unknown map value type `" ++ value ++ "`")
  | struct : ExprFault s .struct 0 .invalidTypeDefinition "struct types are not supported"

/-- What is wrong with a type line behind the lines of a service, by rank: that it has not the shape
of one; that its name is that of a builtin type; that it is that of a declared type; what is wrong
with its expression. -/
inductive TypeFault (s : Service) (line : List Char) : Nat → FaultKind → String → Prop
  | malformed (shapeless : ∀ name expr, ¬ SpellsTypeHead (Text.trimEnd line) name expr) :
      TypeFault s line 0 .invalidTypeDefinition (quote (String.ofList (Text.trim line)))
  | builtin {name : String} {expr : TypeExpr}
      (spelled : SpellsTypeHead (Text.trimEnd line) name expr)
      (taken : ∃ b : Builtin, b.name = name) :
      TypeFault s line 1 .invalidTypeDefinition ("cannot redeclare builtin type `" ++ name ++ "`")
  | duplicate {name : String} {expr : TypeExpr}
      (spelled : SpellsTypeHead (Text.trimEnd line) name expr)
      (taken : s.types.find? name ≠ none) :
      TypeFault s line 2 .invalidTypeDefinition ("duplicate type `" ++ name ++ "`")
  | expr {name : String} {expr : TypeExpr} {rank : Nat} {kind : FaultKind} {detail : String}
      (spelled : SpellsTypeHead (Text.trimEnd line) name expr)
      (fault : ExprFault s expr rank kind detail) : TypeFault s line (rank + 3) kind detail

/-! ### Lines -/

inductive Refused (s : Service) (line : List Char) : FaultKind → String → Prop
  | procedure {side : Side} {kind : FaultKind} {detail : String}
      (word : FirstWord line side.word) (fault : First (ProcedureFault s line) kind detail) :
      Refused s line kind detail
  | type {kind : FaultKind} {detail : String} (word : FirstWord line "type")
      (fault : First (TypeFault s line) kind detail) : Refused s line kind detail
  | unknown {word : String} (visible : ∃ c ∈ line, Text.isBlank c = false)
      (first : FirstWord line word) (other : word ∉ keywords) :
      Refused s line .unknownStatement (quote (String.ofList (Text.trim line)))

/-- What a line adds to a service: nothing, or one procedure, or one type. -/
inductive Adds (s : Service) (number : Nat) (line : List Char) : Service → Prop
  | blank (blank : ∀ c ∈ line, Text.isBlank c) : Adds s number line s
  | procedure {t : Service} {p : ProcedureStatement}
      (spelled : SpellsProcedure (Text.trimEnd line) p)
      (free : (s.procedures p.side).find? p.name = none) (name : t.name = s.name)
      (procedures : ∀ side key, (t.procedures side).find? key =
        if side = p.side ∧ key = p.name then some (p.procedure number)
        else (s.procedures side).find? key)
      (types : t.types = s.types) : Adds s number line t
  | type {t : Service} {key : String} {expr : TypeExpr} {type : DataType}
      (spelled : SpellsType (Text.trimEnd line) key expr) (builds : Builds s key expr type)
      (free : s.types.find? key = none) (name : t.name = s.name)
      (procedures : ∀ side, t.procedures side = s.procedures side)
      (types : ∀ other, t.types.find? other =
        if other = key then some type else s.types.find? other) : Adds s number line t

/-- A line is judged behind the lines of a service by the order of its faults. -/
structure JudgedInOrder (s : Service) (number : Nat) (line : List Char) : Prop where
  /-- What is reported is why the line is refused. -/
  reported : ∀ kind detail,
    Reports (s.judgeLine number line) kind detail ↔ Refused s line kind detail
  /-- There is one reason at most. -/
  one : ∀ kind detail otherKind otherDetail, Refused s line kind detail →
    Refused s line otherKind otherDetail → kind = otherKind ∧ detail = otherDetail
  /-- Without a reason the line adds what it declares. -/
  added : (∀ kind detail, ¬ Refused s line kind detail) →
    ∃ t, s.judgeLine number line = .ok t ∧ Adds s number line t
  /-- A definition is refused on a line of it for the same reason. -/
  stops : ∀ kind detail, Refused s line kind detail → ∀ more,
    ∃ e, s.judgeItems number (.line (String.ofList line) :: more) = .error e ∧
      e.line = number ∧ e.fault.kind = kind ∧ e.fault.detail? = some detail

end Grammar

/-! ### Procedure lines -/

namespace Grammar.ProcedureFault

variable {s : Service} {line : List Char} {kind : FaultKind} {detail : String} {header : Header}

theorem zero_iff : ProcedureFault s line 0 kind detail ↔
    (∀ header, ¬ SpellsHeader (Text.trimEnd line) header) ∧
      .invalidProcedureDefinition = kind ∧ quote (String.ofList (Text.trim line)) = detail := by
  constructor
  · rintro ⟨shapeless⟩
    exact ⟨shapeless, rfl, rfl⟩
  · rintro ⟨shapeless, rfl, rfl⟩
    exact .malformed shapeless

theorem not_add_six {rank : Nat} : ¬ ProcedureFault s line (rank + 6) kind detail := by
  intro fault
  cases fault

variable (spelled : SpellsHeader (Text.trimEnd line) header)

include spelled

theorem unique {other : Header} (h : SpellsHeader (Text.trimEnd line) other) : other = header := by
  have read := header?_eq_some_iff.mpr spelled
  rw [header?_eq_some_iff.mpr h] at read
  exact Option.some.inj read

theorem one_iff : ProcedureFault s line 1 kind detail ↔
    (header.oneway = true ∧ header.signature.rets? ≠ none) ∧
      .unexpectedReturnParameters = kind ∧ quote header.signature.name = detail := by
  constructor
  · intro fault
    cases fault with
    | returnsOfOneway other oneway group =>
        obtain rfl := unique spelled other
        exact ⟨⟨oneway, group⟩, rfl, rfl⟩
  · rintro ⟨⟨oneway, group⟩, rfl, rfl⟩
    exact .returnsOfOneway spelled oneway group

theorem two_iff : ProcedureFault s line 2 kind detail ↔
    FirstOffence header.signature.args kind detail := by
  constructor
  · intro fault
    cases fault with
    | argument other offence =>
        obtain rfl := unique spelled other
        exact offence
  · exact .argument spelled

/-- A group that is missing is like one in which nothing stands. -/
theorem three_iff : ProcedureFault s line 3 kind detail ↔
    FirstOffence (header.signature.rets?.getD []) kind detail := by
  constructor
  · intro fault
    cases fault with
    | returned other group offence =>
        obtain rfl := unique spelled other
        rw [group]
        exact offence
  · intro offence
    cases group : header.signature.rets? with
    | none =>
        rw [group] at offence
        exact absurd rfl offence.1
    | some rets =>
        rw [group] at offence
        exact .returned spelled group offence

theorem four_iff : ProcedureFault s line 4 kind detail ↔
    header.signature.rets? = some [] ∧
      .emptyReturnGroup = kind ∧ quote header.signature.name = detail := by
  constructor
  · intro fault
    cases fault with
    | emptyReturns other group =>
        obtain rfl := unique spelled other
        exact ⟨group, rfl, rfl⟩
  · rintro ⟨group, rfl, rfl⟩
    exact .emptyReturns spelled group

theorem five_iff : ProcedureFault s line 5 kind detail ↔
    (s.procedures header.side).find? header.signature.name ≠ none ∧
      .duplicateProcedureIdentifier = kind ∧ quote header.signature.name = detail := by
  constructor
  · intro fault
    cases fault with
    | duplicate other taken =>
        obtain rfl := unique spelled other
        exact ⟨taken, rfl, rfl⟩
  · rintro ⟨taken, rfl, rfl⟩
    exact .duplicate spelled taken

end Grammar.ProcedureFault

namespace Procedure

variable {s : Service} {line : List Char} {number : Nat} {kind : FaultKind} {detail : String}

theorem detailed_ofLine (line : List Char) (number : Nat) : Detailed (ofLine line number) := by
  unfold ofLine
  split
  · exact .error ⟨_, rfl⟩
  · refine .guard ⟨_, rfl⟩ (.bind (Param.detailed_ofGroup _) fun _ => ?_)
    exact .bind (Param.detailed_ofGroup _) fun _ => .guard ⟨_, rfl⟩ .ok

/-- The group of the return values is read and holds none when nothing stands in it. -/
theorem ofGroup_eq_nil_iff {group : List Char} : Param.ofGroup group = .ok [] ↔ group = [] := by
  constructor
  · intro read
    obtain ⟨spelled, -⟩ := Param.ofGroup_eq_ok_iff.mp read
    cases spelled with
    | empty => rfl
    | params spelled => cases spelled
  · rintro rfl
    rfl

/-- What a procedure line adds is judged in the order of its faults. -/
theorem judged_reports_iff :
    Reports (ofLine line number >>= fun p =>
        if (s.procedures p.side).contains p.name then .error (.duplicateProcedure p.name)
        else .ok (s.addProcedure p)) kind detail ↔
      First (ProcedureFault s line) kind detail := by
  unfold ofLine
  split
  next unread =>
    have shapeless : ∀ header, ¬ SpellsHeader (Text.trimEnd line) header := by
      intro header spelled
      rw [header?_eq_some_iff.mpr spelled] at unread
      cases unread
    refine reports_error_iff_first ⟨_, rfl⟩ fun kind detail => ?_
    rw [ProcedureFault.zero_iff, and_iff_right shapeless]
    exact and_congr_right fun _ => Option.some_inj
  next side oneway name args rets? read =>
    have spelled := header?_eq_some_iff.mp read
    have shaped : ∀ kind detail, ¬ ProcedureFault s line 0 kind detail := by
      intro kind detail fault
      exact (ProcedureFault.zero_iff.mp fault).1 _ spelled
    rw [first_succ_iff shaped]
    refine Iff.trans (iff_of_eq (congrArg (Reports · kind detail) guard_bind)) ?_
    refine reports_guard_iff_first ⟨_, rfl⟩ ?_ fun answered => ?_
    · intro kind detail
      rw [ProcedureFault.one_iff spelled, Bool.and_eq_true_iff, Option.isSome_iff_ne_none]
      exact and_congr_right fun _ => and_congr_right fun _ => Option.some_inj
    rw [bind_assoc]
    refine reports_bind_iff_first (Param.detailed_ofGroup args) ?_ fun argList read_args => ?_
    · intro kind detail
      rw [Param.ofGroup_reports_iff, ProcedureFault.two_iff spelled]
    rw [bind_assoc]
    refine reports_bind_iff_first (Param.detailed_ofGroup _) ?_ fun retList read_rets => ?_
    · intro kind detail
      rw [Param.ofGroup_reports_iff, ProcedureFault.three_iff spelled]
    refine Iff.trans (iff_of_eq (congrArg (Reports · kind detail) guard_bind)) ?_
    refine reports_guard_iff_first ⟨_, rfl⟩ ?_ fun returns => ?_
    · intro kind detail
      have empty : (rets?.isSome && retList.isEmpty) = true ↔ rets? = some [] := by
        rw [Bool.and_eq_true_iff, List.isEmpty_iff]
        constructor
        · rintro ⟨present, rfl⟩
          obtain ⟨rets, rfl⟩ := Option.isSome_iff_exists.mp present
          exact congrArg some (ofGroup_eq_nil_iff.mp read_rets)
        · rintro rfl
          exact ⟨rfl, (Except.ok.inj read_rets).symm⟩
      rw [ProcedureFault.four_iff spelled, empty]
      exact and_congr_right fun _ => and_congr_right fun _ => Option.some_inj
    refine reports_guard_iff_first ⟨_, rfl⟩ ?_ fun free => ?_
    · intro kind detail
      rw [ProcedureFault.five_iff spelled, Table.contains, Option.isSome_iff_ne_none]
      exact and_congr_right fun _ => and_congr_right fun _ => Option.some_inj
    exact reports_ok_iff_first fun rank kind detail => ProcedureFault.not_add_six

end Procedure

/-! ### Type lines -/

namespace Statement

/-- The beginning of a struct type may be followed by anything. -/
theorem typeExpr?_eq_struct_iff {s : List Char} :
    typeExpr? s = some (.struct, []) ↔
      ∃ gap rest, OptWs gap ∧ s = "struct".toList ++ gap ++ "\x7b".toList ++ rest := by
  constructor
  · intro h
    obtain read | ⟨-, h⟩ := Option.or_eq_some_iff.mp h
    · obtain ⟨_, _, -, other⟩ := slice?_eq_some_iff.mp read
      cases other
    obtain read | ⟨-, h⟩ := Option.or_eq_some_iff.mp h
    · obtain ⟨_, _, _, _, -, other⟩ := map?_eq_some_iff.mp read
      cases other
    obtain read | ⟨-, h⟩ := Option.or_eq_some_iff.mp h
    · obtain ⟨s₁, read_word, later⟩ := Option.bind_eq_some_iff.mp read
      obtain ⟨rest, read_brace, -⟩ := Option.bind_eq_some_iff.mp later
      obtain ⟨gap, gap_ws, rfl, -⟩ := skipGap_eq_iff.mp (word?_eq_some_iff.mp read_brace)
      refine ⟨gap, rest, gap_ws, ?_⟩
      simpa only [List.append_assoc] using word?_eq_some_iff.mp read_word
    · obtain ⟨_, -, other⟩ := Option.map_eq_some_iff.mp h
      cases other
  · rintro ⟨gap, rest, gap_ws, rfl⟩
    simp only [List.append_assoc]
    have no_slice : slice? ("struct".toList ++ (gap ++ ("\x7b".toList ++ rest))) = none := rfl
    have no_map : map? ("struct".toList ++ (gap ++ ("\x7b".toList ++ rest))) = none := rfl
    have brace : Stops isGap ("\x7b".toList ++ rest) := Stops.cons rfl rest
    rw [typeExpr?, no_slice, no_map, struct?, word?_append]
    simp only [Option.bind_eq_bind, Option.bind_some]
    rw [skipGap_append gap_ws brace, word?_append]
    rfl

theorem typeLine?_eq_some_iff {line : List Char} {name : String} {expr : TypeExpr} :
    typeLine? line = some (name, expr) ↔ SpellsTypeHead line name expr := by
  constructor
  · intro h
    by_cases struct : expr = .struct
    · subst struct
      obtain ⟨_, _, _, gap_ws, name_id, between_ws, rfl, read⟩ := exists_typeExpr?_of_typeLine? h
      obtain ⟨_, rest, inner_ws, rfl⟩ := typeExpr?_eq_struct_iff.mp read
      simpa only [List.append_assoc] using
        SpellsTypeHead.struct (.type gap_ws name_id between_ws (.struct inner_ws)) rest
    · exact .whole (spells_of_typeLine? h struct)
  · intro head
    cases head with
    | whole spelled => exact typeLine?_of_spells spelled
    | struct spelled rest =>
        obtain ⟨gap_ws, name_id, between_ws, opening⟩ := spelled
        cases opening with
        | @struct inner inner_ws =>
            have stops : Stops isGap ("struct".toList ++ inner ++ "\x7b".toList ++ rest) :=
              Stops.cons rfl _
            have read := typeExpr?_eq_struct_iff.mpr ⟨inner, rest, inner_ws, rfl⟩
            simpa only [List.append_assoc] using
              typeLine?_append gap_ws name_id between_ws stops read

end Statement

namespace Grammar

variable {s : Service} {line : List Char} {name : String} {expr : TypeExpr} {kind : FaultKind}
  {detail : String}

/-- Looking a type up gives what its name stands for. -/
theorem lookupType_eq_some_iff_stands {type : DataType} :
    s.lookupType name = some type ↔ Stands s name type := by
  rw [Service.lookupType, DataType.resolve, Option.or_eq_some_iff]
  constructor
  · rintro (builtin | ⟨other, declared⟩)
    · obtain ⟨b, named, rfl⟩ := Option.map_eq_some_iff.mp builtin
      obtain rfl := Builtin.ofName?_eq_some_iff.mp named
      exact .builtin b
    · rw [Option.map_eq_none_iff, ofName?_eq_none_iff, not_exists] at other
      exact .declared other declared
  · intro stands
    cases stands with
    | builtin b => exact .inl (by rw [Builtin.ofName?_name, Option.map_some])
    | declared other found =>
        refine .inr ⟨?_, found⟩
        rw [Option.map_eq_none_iff, ofName?_eq_none_iff, not_exists]
        exact other

theorem unknown_iff : Unknown s name ↔ s.lookupType name = none := by
  rw [Option.eq_none_iff_forall_ne_some]
  exact forall_congr' fun type => not_congr lookupType_eq_some_iff_stands.symm

namespace ExprFault

variable {target element key value : String}

theorem target_iff : ExprFault s (.simple target) 0 kind detail ↔ Unknown s target ∧
    .invalidTypeDefinition = kind ∧ "unknown type `" ++ target ++ "`" = detail := by
  constructor
  · intro fault
    cases fault with
    | target unknown => exact ⟨unknown, rfl, rfl⟩
  · rintro ⟨unknown, rfl, rfl⟩
    exact .target unknown

theorem element_iff : ExprFault s (.slice element) 0 kind detail ↔ Unknown s element ∧
    .invalidTypeDefinition = kind ∧ "unknown element type `" ++ element ++ "`" = detail := by
  constructor
  · intro fault
    cases fault with
    | element unknown => exact ⟨unknown, rfl, rfl⟩
  · rintro ⟨unknown, rfl, rfl⟩
    exact .element unknown

theorem key_iff : ExprFault s (.map key value) 0 kind detail ↔ Unknown s key ∧
    .invalidTypeDefinition = kind ∧ "unknown map key type `" ++ key ++ "`" = detail := by
  constructor
  · intro fault
    cases fault with
    | key unknown => exact ⟨unknown, rfl, rfl⟩
  · rintro ⟨unknown, rfl, rfl⟩
    exact .key unknown

theorem value_iff : ExprFault s (.map key value) 1 kind detail ↔ Unknown s value ∧
    .invalidTypeDefinition = kind ∧ "unknown map value type `" ++ value ++ "`" = detail := by
  constructor
  · intro fault
    cases fault with
    | value unknown => exact ⟨unknown, rfl, rfl⟩
  · rintro ⟨unknown, rfl, rfl⟩
    exact .value unknown

theorem struct_iff : ExprFault s .struct 0 kind detail ↔
    .invalidTypeDefinition = kind ∧ "struct types are not supported" = detail := by
  constructor
  · rintro ⟨⟩
    exact ⟨rfl, rfl⟩
  · rintro ⟨rfl, rfl⟩
    exact .struct

end ExprFault

namespace TypeFault

theorem zero_iff : TypeFault s line 0 kind detail ↔
    (∀ name expr, ¬ SpellsTypeHead (Text.trimEnd line) name expr) ∧
      .invalidTypeDefinition = kind ∧ quote (String.ofList (Text.trim line)) = detail := by
  constructor
  · rintro ⟨shapeless⟩
    exact ⟨shapeless, rfl, rfl⟩
  · rintro ⟨shapeless, rfl, rfl⟩
    exact .malformed shapeless

variable (spelled : SpellsTypeHead (Text.trimEnd line) name expr)

include spelled

theorem unique {otherName : String} {other : TypeExpr}
    (h : SpellsTypeHead (Text.trimEnd line) otherName other) : otherName = name ∧ other = expr := by
  have read := typeLine?_eq_some_iff.mpr spelled
  rw [typeLine?_eq_some_iff.mpr h] at read
  exact Prod.mk.inj (Option.some.inj read)

theorem one_iff : TypeFault s line 1 kind detail ↔ (∃ b : Builtin, b.name = name) ∧
    .invalidTypeDefinition = kind ∧ "cannot redeclare builtin type `" ++ name ++ "`" = detail := by
  constructor
  · intro fault
    cases fault with
    | builtin other taken =>
        obtain ⟨rfl, -⟩ := unique spelled other
        exact ⟨taken, rfl, rfl⟩
  · rintro ⟨taken, rfl, rfl⟩
    exact .builtin spelled taken

theorem two_iff : TypeFault s line 2 kind detail ↔ s.types.find? name ≠ none ∧
    .invalidTypeDefinition = kind ∧ "duplicate type `" ++ name ++ "`" = detail := by
  constructor
  · intro fault
    cases fault with
    | duplicate other taken =>
        obtain ⟨rfl, -⟩ := unique spelled other
        exact ⟨taken, rfl, rfl⟩
  · rintro ⟨taken, rfl, rfl⟩
    exact .duplicate spelled taken

theorem add_three_iff {rank : Nat} :
    TypeFault s line (rank + 3) kind detail ↔ ExprFault s expr rank kind detail := by
  constructor
  · intro fault
    cases fault with
    | expr other fault =>
        obtain ⟨-, rfl⟩ := unique spelled other
        exact fault
  · exact .expr spelled

end TypeFault

end Grammar

namespace DataType

variable {s : Service} {line : List Char} {name : String} {expr : TypeExpr} {kind : FaultKind}
  {detail : String}

theorem detailed_resolved (role : TypeRole) (name : String) :
    Detailed (ofExpr.resolved s role name) := by
  unfold ofExpr.resolved
  split
  · exact .ok
  · exact .error ⟨_, rfl⟩

theorem resolved_reports_iff {role : TypeRole} :
    Reports (ofExpr.resolved s role name) kind detail ↔ Unknown s name ∧
      .invalidTypeDefinition = kind ∧ "unknown " ++ role.text ++ " `" ++ name ++ "`" = detail := by
  rw [unknown_iff]
  unfold ofExpr.resolved
  split
  next known => simp [not_reports_ok, known]
  next unknown =>
    rw [reports_error, and_iff_right unknown]
    exact and_congr_right fun _ => Option.some_inj

/-- A type expression is judged in the order of its faults. -/
theorem ofExpr_reports_iff :
    Reports (ofExpr s name expr) kind detail ↔ First (ExprFault s expr) kind detail := by
  cases expr with
  | simple target =>
      refine reports_bind_iff_first (detailed_resolved _ _) ?_ fun type _ =>
        reports_ok_iff_first nofun
      intro kind detail
      rw [resolved_reports_iff, ExprFault.target_iff]
      rfl
  | slice element =>
      refine reports_bind_iff_first (detailed_resolved _ _) ?_ fun type _ =>
        reports_ok_iff_first nofun
      intro kind detail
      rw [resolved_reports_iff, ExprFault.element_iff]
      rfl
  | map key value =>
      refine reports_bind_iff_first (detailed_resolved _ _) ?_ fun keyType _ => ?_
      · intro kind detail
        rw [resolved_reports_iff, ExprFault.key_iff]
        rfl
      refine reports_bind_iff_first (detailed_resolved _ _) ?_ fun valueType _ =>
        reports_ok_iff_first nofun
      intro kind detail
      rw [resolved_reports_iff, ExprFault.value_iff]
      rfl
  | struct =>
      refine reports_error_iff_first ⟨_, rfl⟩ fun kind detail => ?_
      rw [ExprFault.struct_iff]
      exact and_congr_right fun _ => Option.some_inj

/-- A type line is judged in the order of its faults. -/
theorem ofLine_reports_iff :
    Reports (ofLine s line) kind detail ↔ First (TypeFault s line) kind detail := by
  unfold ofLine
  split
  next unread =>
    have shapeless : ∀ name expr, ¬ SpellsTypeHead (Text.trimEnd line) name expr := by
      intro name expr spelled
      rw [typeLine?_eq_some_iff.mpr spelled] at unread
      cases unread
    refine reports_error_iff_first ⟨_, rfl⟩ fun kind detail => ?_
    rw [TypeFault.zero_iff, and_iff_right shapeless]
    exact and_congr_right fun _ => Option.some_inj
  next name expr read =>
    have spelled := typeLine?_eq_some_iff.mp read
    have shaped : ∀ kind detail, ¬ TypeFault s line 0 kind detail := by
      intro kind detail fault
      exact (TypeFault.zero_iff.mp fault).1 _ _ spelled
    rw [first_succ_iff shaped]
    refine reports_guard_iff_first ⟨_, rfl⟩ ?_ fun own => ?_
    · intro kind detail
      have builtin : (Builtin.ofName? name).isSome = true ↔ ∃ b : Builtin, b.name = name := by
        rw [Option.isSome_iff_ne_none, Ne, ofName?_eq_none_iff, not_not]
      rw [TypeFault.one_iff spelled, builtin]
      exact and_congr_right fun _ => and_congr_right fun _ => Option.some_inj
    refine reports_guard_iff_first ⟨_, rfl⟩ ?_ fun fresh => ?_
    · intro kind detail
      rw [TypeFault.two_iff spelled, Table.contains, Option.isSome_iff_ne_none]
      exact and_congr_right fun _ => and_congr_right fun _ => Option.some_inj
    simp only [Nat.add_assoc, Nat.reduceAdd]
    rw [ofExpr_reports_iff]
    exact first_congr fun rank kind detail => (TypeFault.add_three_iff spelled).symm

theorem detailed_ofLine (s : Service) (line : List Char) : Detailed (ofLine s line) := by
  unfold ofLine
  split
  · exact .error ⟨_, rfl⟩
  · refine .guard ⟨_, rfl⟩ (.guard ⟨_, rfl⟩ ?_)
    unfold ofExpr
    split
    · exact .bind (detailed_resolved _ _) fun _ => .ok
    · exact .bind (detailed_resolved _ _) fun _ => .ok
    · exact .bind (detailed_resolved _ _) fun _ => .bind (detailed_resolved _ _) fun _ => .ok
    · exact .error ⟨_, rfl⟩

theorem builds_of_ofExpr {type : DataType} (h : ofExpr s name expr = .ok type) :
    Builds s name expr type := by
  have stands : ∀ {role target t}, ofExpr.resolved s role target = .ok t → Stands s target t := by
    intro role target t found
    unfold ofExpr.resolved at found
    split at found
    next known =>
      obtain rfl := Except.ok.inj found
      exact lookupType_eq_some_iff_stands.mp known
    next => cases found
  cases expr with
  | simple target =>
      obtain ⟨t, target_found, same⟩ := bind_eq_ok.mp h
      obtain rfl := Except.ok.inj same
      exact .simple (stands target_found)
  | slice element =>
      obtain ⟨t, element_found, same⟩ := bind_eq_ok.mp h
      obtain rfl := Except.ok.inj same
      exact .slice (stands element_found)
  | map key value =>
      obtain ⟨k, key_found, later⟩ := bind_eq_ok.mp h
      obtain ⟨v, value_found, same⟩ := bind_eq_ok.mp later
      obtain rfl := Except.ok.inj same
      exact .map (stands key_found) (stands value_found)
  | struct => cases h

end DataType

/-! ### Lines -/

namespace Service

variable {s t : Service} {line : List Char} {number : Nat} {kind : FaultKind} {detail : String}

theorem detailed_judgeLine (s : Service) (number : Nat) (line : List Char) :
    Detailed (s.judgeLine number line) := by
  unfold judgeLine
  split
  · exact .ok
  · exact .bind (Procedure.detailed_ofLine line number) fun _ => .guard ⟨_, rfl⟩ .ok
  · exact .bind (DataType.detailed_ofLine s line) fun _ => .ok
  · exact .error ⟨_, rfl⟩

/-- By which rule a line is refused is told by its kind. -/
theorem refused_iff : Refused s line kind detail ↔
    (LineKind.of line = .procedure ∧ First (ProcedureFault s line) kind detail) ∨
      (LineKind.of line = .type ∧ First (TypeFault s line) kind detail) ∨
        (LineKind.of line = .unknown ∧
          .unknownStatement = kind ∧ quote (String.ofList (Text.trim line)) = detail) := by
  constructor
  · intro refused
    cases refused with
    | procedure word fault => exact .inl ⟨LineKind.of_procedure word, fault⟩
    | type word fault => exact .inr (.inl ⟨LineKind.of_type word, fault⟩)
    | unknown visible first other =>
        exact .inr (.inr ⟨LineKind.of_unknown visible first other, rfl, rfl⟩)
  · have told := LineKind.of_cases line
    rintro (⟨isProcedure, fault⟩ | ⟨isType, fault⟩ | ⟨isUnknown, rfl, rfl⟩)
    · obtain ⟨side, word⟩ : ∃ side : Side, FirstWord line side.word := by
        simpa [isProcedure] using told
      exact .procedure word fault
    · exact .type (by simpa [isType] using told) fault
    · obtain ⟨visible, word, first, other⟩ : (∃ c ∈ line, Text.isBlank c = false) ∧
          ∃ word, FirstWord line word ∧ word ∉ keywords := by
        simpa [isUnknown] using told
      exact .unknown visible first other

/-- A line is reported for the reason why it is refused. -/
theorem judgeLine_reports_iff :
    Reports (s.judgeLine number line) kind detail ↔ Refused s line kind detail := by
  rw [refused_iff]
  unfold judgeLine
  cases LineKind.of line with
  | blank => exact iff_of_false not_reports_ok (by simp)
  | procedure => exact Procedure.judged_reports_iff.trans (by simp)
  | type =>
      have added : Reports (DataType.ofLine s line >>= fun type => .ok (s.addType type))
          kind detail ↔ Reports (DataType.ofLine s line) kind detail := by
        rw [reports_bind, or_iff_left]
        rintro ⟨type, -, reported⟩
        exact not_reports_ok reported
      exact added.trans (DataType.ofLine_reports_iff.trans (by simp))
  | unknown =>
      refine reports_error.trans ?_
      simp [Fault.kind, Fault.detail?, quote]

/-- A line that is accepted adds what it declares and nothing else. -/
theorem adds_of_judgeLine (h : s.judgeLine number line = .ok t) : Adds s number line t := by
  have absent : ∀ {α : Type} {table : Table α} {key : String}, ¬ table.contains key = true →
      table.find? key = none := by
    intro α table key free
    rwa [Table.contains, Option.isSome_iff_ne_none, not_not] at free
  unfold judgeLine at h
  split at h
  next isBlank =>
    obtain rfl := Except.ok.inj h
    exact .blank (LineKind.of_eq_blank_iff.mp isBlank)
  next =>
    obtain ⟨p, read, h⟩ := bind_eq_ok.mp h
    obtain ⟨free, h⟩ := guard_eq_ok.mp h
    obtain rfl := Except.ok.inj h
    obtain ⟨statement, spelled, -, rfl⟩ := Procedure.ofLine_eq_ok_iff.mp read
    refine .procedure spelled (absent free) ?_ ?_ ?_
    · rw [addProcedure]
      split <;> rfl
    · intro side key
      rw [procedures_addProcedure]
      by_cases own : side = statement.side
      · simp [own, ProcedureStatement.procedure]
      · simp [own, ProcedureStatement.procedure]
    · rw [addProcedure]
      split <;> rfl
  next =>
    obtain ⟨type, read, h⟩ := bind_eq_ok.mp h
    obtain rfl := Except.ok.inj h
    obtain ⟨key, expr, spelled, -, free, built⟩ := DataType.ofLine_eq_ok_iff.mp read
    refine .type spelled (DataType.builds_of_ofExpr built) free rfl (procedures_addType s type) ?_
    intro other
    rw [addType, Table.find?_insert, name_of_ofExpr built]
  next => cases h

/-- Every line is judged behind every service in the order of its faults: a line is reported for
the first of them and for nothing else, and a line without faults is entered into one table under
a name that was free there. -/
theorem lines_are_judged_in_order (s : Service) (number : Nat) (line : List Char) :
    JudgedInOrder s number line where
  reported := fun _ _ => judgeLine_reports_iff
  one := by
    intro kind detail otherKind otherDetail refused other
    have reports : ∀ {kind detail}, Refused s line kind detail →
        Reports (s.judgeLine number line) kind detail := judgeLine_reports_iff.mpr
    exact (reports refused).unique (reports other)
  added := by
    intro sound
    cases judged : s.judgeLine number line with
    | ok t => exact ⟨t, rfl, adds_of_judgeLine judged⟩
    | error fault =>
        obtain ⟨detail, named⟩ := detailed_judgeLine s number line fault judged
        exact absurd (judgeLine_reports_iff.mp ⟨fault, judged, rfl, named⟩) (sound _ _)
  stops := by
    intro kind detail refused more
    obtain ⟨fault, judged, same, named⟩ := judgeLine_reports_iff.mpr refused
    refine ⟨⟨number, fault⟩, ?_, rfl, same, named⟩
    rw [judgeItems, String.toList_ofList, judged]

example : (named "x").judgeLine 2 "server oneway f(a bool, )()".toList =
    .error (.returnsOfOneway "f") := rfl

example : (named "x").judgeLine 2 "server f(a int,,a bool)( )".toList =
    .error (.malformedParam 2 "") := rfl

end Service

end DuplexRpc
