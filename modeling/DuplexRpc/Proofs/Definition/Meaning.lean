import DuplexRpc.Proofs.Definition.Statements
import Mathlib.Data.List.Induction

/-!
# Declarations one after another

What is required of a whole body is required of each line against the lines before it.
A line that meets this changes the meaning of no name that is known already: types are
built on earlier types, and no name is declared twice.
-/

namespace DuplexRpc.Grammar

theorem mem_snoc {body : List Line} {l x : Line} : x ∈ body ++ [l] ↔ x ∈ body ∨ x = l := by
  rw [List.mem_append, List.mem_singleton]

/-! ### Names -/

theorem mem_procedureNames {side : Side} {body : List Line} {name : String} :
    name ∈ procedureNames side body ↔
      ∃ p, .procedure p ∈ body ∧ p.side = side ∧ p.name = name := by
  rw [procedureNames, List.mem_filterMap]
  constructor
  · rintro ⟨l, hl, named⟩
    cases l with
    | blank => cases named
    | procedure p =>
        rw [Line.procedureName?] at named
        split at named
        next same => exact ⟨p, hl, same, Option.some.inj named⟩
        next => cases named
    | type name expr => cases named
  · rintro ⟨p, hp, rfl, rfl⟩
    exact ⟨_, hp, if_pos rfl⟩

theorem mem_typeNames {body : List Line} {name : String} :
    name ∈ typeNames body ↔ ∃ expr, .type name expr ∈ body := by
  rw [typeNames, List.mem_filterMap]
  constructor
  · rintro ⟨l, hl, named⟩
    cases l with
    | blank => cases named
    | procedure p => cases named
    | type name expr =>
        obtain rfl := Option.some.inj named
        exact ⟨expr, hl⟩
  · rintro ⟨expr, hl⟩
    exact ⟨_, hl, rfl⟩

theorem procedureNames_append (side : Side) (body later : List Line) :
    procedureNames side (body ++ later) = procedureNames side body ++ procedureNames side later :=
  List.filterMap_append

theorem typeNames_append (body later : List Line) :
    typeNames (body ++ later) = typeNames body ++ typeNames later :=
  List.filterMap_append

/-! ### Validity line by line -/

theorem Known.append {body : List Line} {name : String} (h : Known body name) (later : List Line) :
    Known (body ++ later) name := by
  rcases h with builtin | declared
  · exact .inl builtin
  · rw [Known, typeNames_append]
    exact .inr (List.mem_append_left _ declared)

/-- What is required of a line that follows the lines of a body. -/
def Line.Admissible (body : List Line) : Line → Prop
  | .blank => True
  | .procedure p => p.Valid ∧ p.name ∉ procedureNames p.side body
  | .type name expr =>
    ¬ Known body name ∧ expr ≠ .struct ∧ ∀ target ∈ targets expr, Known body target

theorem Valid.nil : Valid [] where
  procedure := by simp
  distinctProcedures := fun _ => List.nodup_nil
  distinctTypes := List.nodup_nil
  notBuiltin := by simp [typeNames]
  notStruct := by simp
  declared := by simp

/-- The first lines of a valid body are valid. -/
theorem Valid.of_append {body later : List Line} (h : Valid (body ++ later)) : Valid body where
  procedure := fun p hp => h.procedure p (List.mem_append_left later hp)
  distinctProcedures := by
    intro side
    have distinct := h.distinctProcedures side
    rw [procedureNames_append] at distinct
    exact (List.nodup_append.mp distinct).1
  distinctTypes := by
    have distinct := h.distinctTypes
    rw [typeNames_append] at distinct
    exact (List.nodup_append.mp distinct).1
  notBuiltin := by
    intro b declared
    refine h.notBuiltin b ?_
    rw [typeNames_append]
    exact List.mem_append_left _ declared
  notStruct := fun name hl => h.notStruct name (List.mem_append_left later hl)
  declared := by
    rintro earlier name expr rest rfl
    exact h.declared earlier name expr (rest ++ later) (List.append_assoc _ _ _)

/-- A line of a valid body is admissible behind the lines before it. -/
theorem Valid.admissible {body : List Line} {l : Line} (h : Valid (body ++ [l])) :
    l.Admissible body := by
  have last : l ∈ body ++ [l] := mem_snoc.mpr (.inr rfl)
  cases l with
  | blank => trivial
  | procedure p =>
      have distinct := h.distinctProcedures p.side
      have own : procedureNames p.side [.procedure p] = [p.name] := by
        simp [procedureNames, Line.procedureName?]
      rw [procedureNames_append, own] at distinct
      exact ⟨h.procedure p last, (nodup_snoc.mp distinct).2⟩
  | type name expr =>
      have distinct := h.distinctTypes
      rw [typeNames_append] at distinct
      refine ⟨?_, ?_, h.declared body name expr [] rfl⟩
      · rintro (⟨b, rfl⟩ | declared)
        · exact h.notBuiltin b (mem_typeNames.mpr ⟨expr, last⟩)
        · exact (nodup_snoc.mp distinct).2 declared
      · rintro rfl
        exact h.notStruct name last

theorem snoc_eq_cons {xs earlier later : List Line} {x y : Line}
    (h : xs ++ [y] = earlier ++ x :: later) :
    (earlier = xs ∧ x = y) ∨ ∃ rest, xs = earlier ++ x :: rest := by
  obtain rfl | ⟨rest, z, rfl⟩ := List.eq_nil_or_concat later
  · obtain ⟨rfl, same⟩ := List.append_inj' h rfl
    exact .inl ⟨rfl, (List.cons.inj same).1.symm⟩
  · rw [List.concat_eq_append, ← List.cons_append, ← List.append_assoc] at h
    exact .inr ⟨rest, (List.append_inj' h rfl).1⟩

/-- A valid body stays valid when a line is added that is admissible behind it. -/
theorem Valid.snoc {body : List Line} {l : Line} (h : Valid body) (admissible : l.Admissible body) :
    Valid (body ++ [l]) where
  procedure := by
    intro p hp
    obtain hp | rfl := mem_snoc.mp hp
    · exact h.procedure p hp
    · exact admissible.1
  distinctProcedures := by
    intro side
    rw [procedureNames_append]
    cases named : l.procedureName? side with
    | none => simpa [procedureNames, named] using h.distinctProcedures side
    | some name =>
        have own : procedureNames side [l] = [name] := by simp [procedureNames, named]
        obtain ⟨p, hp, rfl, rfl⟩ := mem_procedureNames.mp (own ▸ List.mem_singleton_self name)
        obtain rfl := List.mem_singleton.mp hp
        rw [own]
        exact nodup_snoc.mpr ⟨h.distinctProcedures p.side, admissible.2⟩
  distinctTypes := by
    rw [typeNames_append]
    cases named : l.typeName? with
    | none => simpa [typeNames, named] using h.distinctTypes
    | some name =>
        have own : typeNames [l] = [name] := by simp [typeNames, named]
        obtain ⟨expr, hl⟩ := mem_typeNames.mp (own ▸ List.mem_singleton_self name)
        obtain rfl := List.mem_singleton.mp hl
        rw [own]
        exact nodup_snoc.mpr ⟨h.distinctTypes, fun declared => admissible.1 (.inr declared)⟩
  notBuiltin := by
    intro b declared
    obtain ⟨expr, hl⟩ := mem_typeNames.mp declared
    obtain hl | rfl := mem_snoc.mp hl
    · exact h.notBuiltin b (mem_typeNames.mpr ⟨expr, hl⟩)
    · exact admissible.1 (.inl ⟨b, rfl⟩)
  notStruct := by
    intro name hl
    obtain hl | rfl := mem_snoc.mp hl
    · exact h.notStruct name hl
    · exact admissible.2.1 rfl
  declared := by
    intro earlier name expr later shape
    obtain ⟨rfl, rfl⟩ | ⟨rest, rfl⟩ := snoc_eq_cons shape
    · exact admissible.2.2
    · exact h.declared earlier name expr rest rfl

/-! ### Meanings -/

/-- What a name stands for depends on what is declared and not on where. -/
theorem Means.of_subset {body other : List Line} {name : String} {type : DataType}
    (h : Means body name type) (sub : body ⊆ other) : Means other name type := by
  induction h with
  | builtin type => exact .builtin type
  | simple line _ ih => exact .simple (sub line) ih
  | slice line _ ih => exact .slice (sub line) ih
  | map line _ _ ih₁ ih₂ => exact .map (sub line) ih₁ ih₂

/-- More lines take no meaning away. -/
theorem Means.append {body : List Line} {name : String} {type : DataType} (h : Means body name type)
    (later : List Line) : Means (body ++ later) name type :=
  h.of_subset (List.subset_append_left body later)

theorem Means.name_eq {body : List Line} {name : String} {type : DataType}
    (h : Means body name type) : type.name = name := by
  cases h <;> rfl

theorem Means.known {body : List Line} {name : String} {type : DataType}
    (h : Means body name type) : Known body name := by
  cases h with
  | builtin type => exact .inl ⟨type, rfl⟩
  | simple line | slice line | map line => exact .inr (mem_typeNames.mpr ⟨_, line⟩)

/-- In a valid body every type refers to known types. -/
theorem Valid.known {body : List Line} (h : Valid body) {name : String} {expr : Statement.TypeExpr}
    (line : .type name expr ∈ body) : ∀ target ∈ targets expr, Known body target := by
  intro target ht
  obtain ⟨earlier, later, rfl⟩ := List.append_of_mem line
  exact (h.declared earlier name expr later rfl target ht).append _

/-- A line behind a valid body says nothing about the names that are known there. -/
theorem Means.of_snoc {body : List Line} {l : Line} {name : String} {type : DataType}
    (h : Means (body ++ [l]) name type) (valid : Valid body) (admissible : l.Admissible body)
    (known : Known body name) : Means body name type := by
  have earlier : ∀ {name expr}, .type name expr ∈ body ++ [l] → Known body name →
      .type name expr ∈ body := by
    intro name expr line known
    obtain line | rfl := mem_snoc.mp line
    · exact line
    · exact absurd known admissible.1
  induction h with
  | builtin type => exact .builtin type
  | simple line _ ih =>
      have line := earlier line known
      exact .simple line (ih (valid.known line _ (by simp [targets])))
  | slice line _ ih =>
      have line := earlier line known
      exact .slice line (ih (valid.known line _ (by simp [targets])))
  | map line _ _ ih₁ ih₂ =>
      have line := earlier line known
      exact .map line (ih₁ (valid.known line _ (by simp [targets])))
        (ih₂ (valid.known line _ (by simp [targets])))

/-- Every name that is known in a valid body means something. -/
theorem Valid.exists_means {body : List Line} (h : Valid body) {name : String}
    (known : Known body name) : ∃ type, Means body name type := by
  induction body using List.reverseRecOn generalizing name with
  | nil =>
      rcases known with ⟨b, rfl⟩ | declared
      · exact ⟨_, .builtin b⟩
      · exact absurd declared List.not_mem_nil
  | append_singleton body l ih =>
      have valid := h.of_append
      have meaning : ∀ {name}, Known body name → ∃ type, Means (body ++ [l]) name type :=
        fun known => (ih valid known).imp fun _ means => means.append [l]
      by_cases earlier : Known body name
      · exact meaning earlier
      rcases known with builtin | declared
      · exact absurd (.inl builtin) earlier
      obtain ⟨expr, line⟩ := mem_typeNames.mp declared
      have last : .type name expr = l := (mem_snoc.mp line).resolve_left fun line =>
        earlier (.inr (mem_typeNames.mpr ⟨expr, line⟩))
      subst last
      obtain ⟨-, other, known⟩ := h.admissible
      cases expr with
      | simple target =>
          obtain ⟨type, means⟩ := meaning (known target (by simp [targets]))
          exact ⟨_, .simple line means⟩
      | slice element =>
          obtain ⟨type, means⟩ := meaning (known element (by simp [targets]))
          exact ⟨_, .slice line means⟩
      | map key value =>
          obtain ⟨keyType, key_means⟩ := meaning (known key (by simp [targets]))
          obtain ⟨valueType, value_means⟩ := meaning (known value (by simp [targets]))
          exact ⟨_, .map line key_means value_means⟩
      | struct => exact absurd rfl other

/-! ### What a service holds -/

theorem ofName?_eq_none_iff {name : String} :
    Builtin.ofName? name = none ↔ ¬ ∃ b : Builtin, b.name = name := by
  rw [Option.eq_none_iff_forall_ne_some, not_exists]
  exact forall_congr' fun b => not_congr Builtin.ofName?_eq_some_iff

/-- A line declares what it says, with the number that it has behind the lines before it. -/
theorem declares_snoc {body : List Line} {l : Line} {side : Side} {name : String} {q : Procedure} :
    Declares (body ++ [l]) side name q ↔ Declares body side name q ∨
      ∃ p, l = .procedure p ∧ p.side = side ∧ p.name = name ∧
        p.procedure (body.length + 2) = q := by
  constructor
  · rintro ⟨i, p, line, declares⟩
    rw [List.getElem?_append] at line
    split at line
    next inside => exact .inl ⟨i, p, line, declares⟩
    next outside =>
      obtain ⟨first, same⟩ := List.getElem?_eq_some_iff.mp line
      have last : i = body.length := by
        rw [List.length_singleton] at first
        omega
      subst last
      rw [List.getElem_singleton] at same
      exact .inr ⟨p, same, declares⟩
  · rintro (⟨i, p, line, declares⟩ | ⟨p, rfl, declares⟩)
    · obtain ⟨inside, -⟩ := List.getElem?_eq_some_iff.mp line
      exact ⟨i, p, by rw [List.getElem?_append_left inside, line], declares⟩
    · exact ⟨body.length, p, List.getElem?_concat_length, declares⟩

namespace Defines

variable {d : Declarations} {service : Service}

theorem unique {other : Service} (h : Defines d service) (h' : Defines d other) :
    service = other := by
  have procedures : ∀ side, service.procedures side = other.procedures side := by
    intro side
    refine Table.ext fun key => Option.ext fun p => ?_
    rw [h.procedures, h'.procedures]
  have types : service.types = other.types := by
    refine Table.ext fun key => Option.ext fun t => ?_
    rw [h.types, h'.types]
  have server := procedures .server
  have client := procedures .client
  have name := h.name.trans h'.name.symm
  cases service
  cases other
  simp only [Service.procedures] at server client
  simp only at name types
  rw [name, server, client, types]

theorem contains_iff (h : Defines d service) {side : Side} {name : String} :
    (service.procedures side).contains name ↔ name ∈ procedureNames side d.body := by
  rw [Table.contains, Option.isSome_iff_exists, mem_procedureNames]
  constructor
  · rintro ⟨p, found⟩
    obtain ⟨i, statement, line, at_side, named, -⟩ := (h.procedures side name p).mp found
    exact ⟨statement, List.mem_of_getElem? line, at_side, named⟩
  · rintro ⟨statement, line, at_side, named⟩
    obtain ⟨i, line⟩ := List.mem_iff_getElem?.mp line
    exact ⟨_, (h.procedures side name _).mpr ⟨i, statement, line, at_side, named, rfl⟩⟩

theorem find?_eq_none_iff (h : Defines d service) (valid : Valid d.body) {name : String} :
    service.types.find? name = none ↔ name ∉ typeNames d.body := by
  constructor
  · intro absent declared
    obtain ⟨type, means⟩ := valid.exists_means (.inr declared)
    rw [(h.types name type).mpr ⟨declared, means⟩] at absent
    cases absent
  · intro undeclared
    by_contra found
    obtain ⟨type, found⟩ := Option.ne_none_iff_exists'.mp found
    exact undeclared ((h.types name type).mp found).1

/-- Looking a type up gives the meaning of its name. -/
theorem lookupType_eq_some_iff (h : Defines d service) (valid : Valid d.body) {name : String}
    {type : DataType} : service.lookupType name = some type ↔ Means d.body name type := by
  constructor
  · intro found
    obtain builtin | ⟨-, declared⟩ := Option.or_eq_some_iff.mp found
    · obtain ⟨b, named, rfl⟩ := Option.map_eq_some_iff.mp builtin
      obtain rfl := Builtin.ofName?_eq_some_iff.mp named
      exact .builtin b
    · exact ((h.types name type).mp declared).2
  · intro means
    by_cases declared : name ∈ typeNames d.body
    · have own : Builtin.ofName? name = none := by
        rw [ofName?_eq_none_iff]
        rintro ⟨b, rfl⟩
        exact valid.notBuiltin b declared
      rw [Service.lookupType, DataType.resolve, own]
      exact (h.types name type).mpr ⟨declared, means⟩
    · cases means with
      | builtin b => exact DataType.resolve_builtin service.types b
      | simple line | slice line | map line =>
          exact absurd (mem_typeNames.mpr ⟨_, line⟩) declared

end Defines

end DuplexRpc.Grammar
