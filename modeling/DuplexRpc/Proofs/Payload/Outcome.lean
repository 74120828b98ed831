import DuplexRpc.Proofs.Payload

/-!
# The outcome of a check

A payload passes a check when every parameter that it has a value for has one of its type.
Missing values are filled in, and names that are not declared play no part. A payload that
does not pass is refused for the first parameter, in the order of their declaration, that
it has a wrong value for, in whatever order the payload lists its members.
-/

namespace DuplexRpc

/-- The values of a type: strings, truth values, and the whole numbers in the range of an integer
type. A type that is not builtin has no values. -/
inductive DataType.Admits : DataType → Json → Prop
  | string (text : String) : Admits (.builtin .string) (.string text)
  | bool (value : Bool) : Admits (.builtin .bool) (.bool value)
  | integer {type : Builtin} {least greatest n : Int} {inRange : -(1 <<< 63) ≤ n ∧ n < 1 <<< 64}
      (range : type.range? = some (least, greatest)) (low : least ≤ n) (high : n ≤ greatest) :
      Admits (.builtin type) (.number (.integer n inRange))

theorem DataType.accepts_iff_admits {type : DataType} {value : Json} :
    type.accepts value ↔ type.Admits value := by
  constructor
  · intro accepted
    cases type with
    | builtin type =>
        change type.accepts value at accepted
        unfold Builtin.accepts at accepted
        split at accepted
        next text => exact .string text
        next value => exact .bool value
        next n inRange =>
          split at accepted
          next least greatest range =>
            obtain ⟨low, high⟩ := Bool.and_eq_true_iff.mp accepted
            exact .integer range (of_decide_eq_true low) (of_decide_eq_true high)
          next => cases accepted
        next => cases accepted
    | simple | slice | map | struct => cases accepted
  · intro admitted
    cases admitted with
    | string text => rfl
    | bool value => rfl
    | @integer type _ _ n inRange range low high =>
        change type.accepts (.number (.integer n inRange))
        simp only [Builtin.accepts, range, low, high, decide_true, Bool.and_self]

namespace Payload

/-- The names and values in a payload. No payload and null have none, and nothing else but an
object has values under names. -/
inductive Holds : Option Json → List (String × Json) → Prop
  | absent : Holds none []
  | null : Holds (some .null) []
  | object (members : List (String × Json)) : Holds (some (.object members)) members

/-- The value that members give to a name. Of several values the last one counts. -/
def valueOf? (name : String) : List (String × Json) → Option Json
  | [] => none
  | (other, value) :: rest => (valueOf? name rest).or (if other = name then some value else none)

/-- A parameter has a value of its type among the members, or none. -/
def Suits (members : List (String × Json)) (p : Param) : Prop :=
  ∀ value, valueOf? p.name members = some value → p.type.Admits value

/-- All that checking a payload against parameters comes to. -/
structure Checked (params : List Param) (payload : Option Json) : Prop where
  /-- A payload passes when it holds values by name that suit the parameters. -/
  passes : (∃ v, conform params payload = .ok v) ↔
    ∃ members, Holds payload members ∧ ∀ p ∈ params, Suits members p
  /-- What comes out has the names of the parameters and no other. A parameter without a value in
  the payload has the zero value of its type. -/
  values : ∀ {v members}, conform params payload = .ok v → Holds payload members →
    (∀ name, name ∈ v.fields.keys ↔ name ∈ params.map (·.name)) ∧
      ∀ p ∈ params, v.find? p.name = some ((valueOf? p.name members).getD p.type.zero)
  /-- Members that are not declared have no influence. -/
  undeclared : ∀ {members others}, Holds payload members →
    (∀ p ∈ params, valueOf? p.name others = valueOf? p.name members) →
      conform params (some (.object others)) = conform params payload
  /-- The order of the members has no influence. -/
  reordered : ∀ {members others}, payload = some (.object members) →
    (members.map Prod.fst).Nodup → members.Perm others →
      conform params (some (.object others)) = conform params payload
  /-- A payload without values by name is refused for its kind. -/
  notAnObject : ∀ {found}, conform params payload = .error (.notAnObject found) ↔
    (¬ ∃ members, Holds payload members) ∧ payload.map Json.kind = some found
  /-- Any other payload is refused for the first parameter that it does not suit. -/
  typeMismatch : ∀ {path expected found},
    conform params payload = .error (.typeMismatch path expected found) ↔
      ∃ members earlier p later value, Holds payload members ∧ params = earlier ++ p :: later ∧
        (∀ q ∈ earlier, Suits members q) ∧ valueOf? p.name members = some value ∧
          ¬ p.type.Admits value ∧ path = p.name ∧ expected = p.type.name ∧ found = value.kind

/-! ### Members -/

theorem find?_ofList (members : List (String × Json)) (name : String) :
    (Table.ofList members).find? name = valueOf? name members := by
  have entered : ∀ t : Table Json,
      (members.foldl (fun t entry => t.insert entry.1 entry.2) t).find? name =
        (valueOf? name members).or (t.find? name) := by
    induction members with
    | nil => exact fun t => rfl
    | cons member rest ih =>
        intro t
        rw [List.foldl_cons, ih, Table.find?_insert, valueOf?, Option.or_assoc]
        congr 1
        by_cases same : member.1 = name
        · rw [if_pos same, if_pos same.symm, Option.some_or]
        · rw [if_neg same, if_neg (Ne.symm same), Option.none_or]
  rw [Table.ofList, entered]
  exact Option.or_none

/-- Where every name has one value, it is the one that is listed. -/
theorem valueOf?_eq_some_iff {members : List (String × Json)}
    (distinct : (members.map Prod.fst).Nodup) {name : String} {value : Json} :
    valueOf? name members = some value ↔ (name, value) ∈ members := by
  induction members generalizing value with
  | nil => exact iff_of_false nofun List.not_mem_nil
  | cons member rest ih =>
      obtain ⟨other, first⟩ := member
      obtain ⟨fresh, distinct⟩ := List.nodup_cons.mp distinct
      rw [valueOf?, List.mem_cons, Prod.mk.injEq, ← ih distinct]
      by_cases same : other = name
      · subst same
        have absent : valueOf? other rest = none :=
          Option.eq_none_iff_forall_ne_some.mpr fun later found =>
            fresh (List.mem_map.mpr ⟨_, (ih distinct).mp found, rfl⟩)
        simp [absent, eq_comm]
      · simp [same, Ne.symm same]

theorem payloadFields_eq_ok_iff {payload : Option Json} {fields : Table Json} :
    payloadFields payload = .ok fields ↔ ∃ members, Holds payload members ∧
      .ofList members = fields := by
  constructor
  · intro read
    unfold payloadFields at read
    split at read
    · obtain rfl := Except.ok.inj read
      exact ⟨[], .absent, rfl⟩
    · obtain rfl := Except.ok.inj read
      exact ⟨[], .null, rfl⟩
    · obtain rfl := Except.ok.inj read
      exact ⟨_, .object _, rfl⟩
    · cases read
  · rintro ⟨members, holds, rfl⟩
    cases holds <;> rfl

theorem payloadFields_eq_error_iff {payload : Option Json} {e : PayloadError} :
    payloadFields payload = .error e ↔ (¬ ∃ members, Holds payload members) ∧
      ∃ value, payload = some value ∧ e = .notAnObject value.kind := by
  constructor
  · intro refused
    refine ⟨?_, ?_⟩
    · rintro ⟨members, holds⟩
      cases holds <;> cases refused
    · unfold payloadFields at refused
      split at refused
      · cases refused
      · cases refused
      · cases refused
      · exact ⟨_, rfl, (Except.error.inj refused).symm⟩
  · rintro ⟨none, value, rfl, rfl⟩
    cases value with
    | null => exact absurd ⟨[], .null⟩ none
    | object members => exact absurd ⟨members, .object members⟩ none
    | bool | number | string | array => rfl

theorem Holds.unique {payload : Option Json} {members others : List (String × Json)}
    (h : Holds payload members) (k : Holds payload others) : members = others := by
  cases h <;> cases k <;> rfl

/-! ### Parameters one after another -/

section

variable {fields left : Table Json} {done v : Values} {params : List Param}

/-- Only the values of the parameters matter. -/
theorem conformFields_congr (same : ∀ p ∈ params, left.find? p.name = fields.find? p.name) :
    conformFields left done params = conformFields fields done params := by
  induction params generalizing fields left done with
  | nil => rfl
  | cons p rest ih =>
      have later : ∀ q ∈ rest, left.find? q.name = fields.find? q.name :=
        fun q hq => same q (List.mem_cons_of_mem p hq)
      rw [conformFields, conformFields, same p List.mem_cons_self]
      cases fields.find? p.name with
      | none => exact ih later
      | some value =>
          simp only
          rw [ih]
          intro q hq
          rw [Table.find?_erase, Table.find?_erase, later q hq]

/-- A parameter whose name is not taken again takes its value, and the others are checked as if it
had not been there. -/
theorem conformFields_cons_of_fresh {p : Param} (fresh : p.name ∉ params.map (·.name)) :
    conformFields fields done (p :: params) =
      match fields.find? p.name with
      | some value =>
        if p.type.accepts value then conformFields fields (done.insert p.name value) params
        else .error (.typeMismatch p.name p.type.name value.kind)
      | none => conformFields fields (done.insert p.name p.type.zero) params := by
  rw [conformFields]
  cases fields.find? p.name with
  | none => rfl
  | some value =>
      simp only
      rw [conformFields_congr]
      intro q hq
      rw [Table.find?_erase, if_neg (name_ne_of_mem fresh hq)]

/-- The error is that of the first parameter whose value is of a wrong type. -/
theorem conformFields_eq_error_iff (distinct : (params.map (·.name)).Nodup) {e : PayloadError} :
    conformFields fields done params = .error e ↔ ∃ earlier p later value,
      params = earlier ++ p :: later ∧
        (∀ q ∈ earlier, ∀ w, fields.find? q.name = some w → q.type.accepts w) ∧
          fields.find? p.name = some value ∧ ¬ p.type.accepts value ∧
            e = .typeMismatch p.name p.type.name value.kind := by
  induction params generalizing done with
  | nil => simp [conformFields]
  | cons p rest ih =>
      obtain ⟨fresh, distinct⟩ := List.nodup_cons.mp distinct
      rw [conformFields_cons_of_fresh fresh]
      constructor
      · intro refused
        split at refused
        next value found =>
          split at refused
          next accepted =>
            obtain ⟨earlier, q, later, w, rfl, suited, offends⟩ := (ih distinct).mp refused
            refine ⟨p :: earlier, q, later, w, rfl, ?_, offends⟩
            refine List.forall_mem_cons.mpr ⟨fun other hother => ?_, suited⟩
            obtain rfl : value = other := Option.some.inj (found.symm.trans hother)
            exact accepted
          next refuses =>
            have suited : ∀ q ∈ ([] : List Param), ∀ w, fields.find? q.name = some w →
                q.type.accepts w := fun _ none => absurd none List.not_mem_nil
            exact ⟨[], p, rest, value, rfl, suited, found, refuses, (Except.error.inj refused).symm⟩
        next missing =>
          obtain ⟨earlier, q, later, w, rfl, suited, offends⟩ := (ih distinct).mp refused
          refine ⟨p :: earlier, q, later, w, rfl, ?_, offends⟩
          refine List.forall_mem_cons.mpr ⟨fun other hother => ?_, suited⟩
          rw [missing] at hother
          cases hother
      · rintro ⟨earlier, q, later, value, shape, suited, found, refuses, rfl⟩
        cases earlier with
        | nil =>
            obtain ⟨rfl, rfl⟩ := List.cons.inj shape
            simp only [found, refuses, if_false, Bool.false_eq_true]
        | cons first earlier =>
            obtain ⟨rfl, rfl⟩ := List.cons.inj shape
            obtain ⟨first, suited⟩ := List.forall_mem_cons.mp suited
            have behind : ∀ done, conformFields fields done (earlier ++ q :: later) =
                .error (.typeMismatch q.name q.type.name value.kind) := fun done =>
              (ih distinct).mpr ⟨earlier, q, later, value, rfl, suited, found, refuses, rfl⟩
            cases own : fields.find? p.name with
            | none => exact behind _
            | some w =>
                simp only [first w own, if_true]
                exact behind _

end

/-! ### The whole check -/

section

variable {params : List Param} {payload : Option Json} {members : List (String × Json)}

theorem conform_of_holds (holds : Holds payload members) :
    conform params payload = conformFields (.ofList members) .empty params := by
  rw [conform, payloadFields_eq_ok_iff.mpr ⟨members, holds, rfl⟩]

theorem suits_iff {p : Param} : Suits members p ↔
    ∀ value, (Table.ofList members).find? p.name = some value → p.type.accepts value := by
  rw [find?_ofList]
  exact forall₂_congr fun _ _ => DataType.accepts_iff_admits.symm

/-- Nothing passes but what holds values by name. -/
theorem holds_of_conform {v : Values} (h : conform params payload = .ok v) :
    ∃ members, Holds payload members := by
  unfold conform at h
  split at h
  next fields read =>
    obtain ⟨members, holds, -⟩ := payloadFields_eq_ok_iff.mp read
    exact ⟨members, holds⟩
  next => cases h

theorem conform_eq_error_iff (distinct : (params.map (·.name)).Nodup) {e : PayloadError} :
    conform params payload = .error e ↔
      ((¬ ∃ members, Holds payload members) ∧
        ∃ value, payload = some value ∧ e = .notAnObject value.kind) ∨
      ∃ members earlier p later value, Holds payload members ∧ params = earlier ++ p :: later ∧
        (∀ q ∈ earlier, Suits members q) ∧ valueOf? p.name members = some value ∧
          ¬ p.type.Admits value ∧ e = .typeMismatch p.name p.type.name value.kind := by
  by_cases named : ∃ members, Holds payload members
  · obtain ⟨members, holds⟩ := named
    rw [conform_of_holds holds, conformFields_eq_error_iff distinct]
    simp only [find?_ofList, DataType.accepts_iff_admits]
    constructor
    · rintro ⟨earlier, p, later, value, offends⟩
      exact .inr ⟨members, earlier, p, later, value, holds, offends⟩
    · rintro (⟨unnamed, -⟩ | ⟨others, earlier, p, later, value, same, offends⟩)
      · exact absurd ⟨members, holds⟩ unnamed
      · obtain rfl := holds.unique same
        exact ⟨earlier, p, later, value, offends⟩
  · have refused : conform params payload = .error e ↔ payloadFields payload = .error e := by
      unfold conform
      split
      next fields read =>
        obtain ⟨members, holds, -⟩ := payloadFields_eq_ok_iff.mp read
        exact absurd ⟨members, holds⟩ named
      next read => rw [read, Except.error.injEq, Except.error.injEq]
    rw [refused, payloadFields_eq_error_iff]
    constructor
    · exact .inl
    · rintro (unnamed | ⟨members, _, _, _, _, holds, -⟩)
      · exact unnamed
      · exact absurd ⟨members, holds⟩ named

theorem exists_conform_iff (distinct : (params.map (·.name)).Nodup) :
    (∃ v, conform params payload = .ok v) ↔
      ∃ members, Holds payload members ∧ ∀ p ∈ params, Suits members p := by
  constructor
  · rintro ⟨v, passed⟩
    obtain ⟨members, holds⟩ := holds_of_conform passed
    rw [conform_of_holds holds] at passed
    exact ⟨members, holds, fun p hp =>
      suits_iff.mpr fun value hv => accepts_of_conformFields distinct passed hp hv⟩
  · rintro ⟨members, holds, suited⟩
    rw [conform_of_holds holds]
    exact conformFields_of_accepts distinct fun p hp => suits_iff.mp (suited p hp)

theorem values_of_conform (distinct : (params.map (·.name)).Nodup) {v : Values}
    (passed : conform params payload = .ok v) (holds : Holds payload members) :
    (∀ name, name ∈ v.fields.keys ↔ name ∈ params.map (·.name)) ∧
      ∀ p ∈ params, v.find? p.name = some ((valueOf? p.name members).getD p.type.zero) := by
  rw [conform_of_holds holds] at passed
  obtain ⟨found, kept⟩ := find?_of_conformFields distinct passed
  refine ⟨fun name => ?_, fun p hp => by rw [found p hp, find?_ofList]⟩
  rw [Table.mem_keys_iff]
  by_cases declared : name ∈ params.map (·.name)
  · obtain ⟨p, hp, rfl⟩ := List.mem_map.mp declared
    exact iff_of_true (Option.isSome_iff_exists.mpr ⟨_, found p hp⟩) declared
  · have missing : v.fields.find? name = none := kept name declared
    rw [missing]
    exact iff_of_false nofun declared

theorem conform_congr {others : List (String × Json)} (holds : Holds payload members)
    (same : ∀ p ∈ params, valueOf? p.name others = valueOf? p.name members) :
    conform params (some (.object others)) = conform params payload := by
  rw [conform_of_holds holds, conform_of_holds (.object others)]
  refine conformFields_congr fun p hp => ?_
  rw [find?_ofList, find?_ofList, same p hp]

theorem valueOf?_of_perm {others : List (String × Json)} (distinct : (members.map Prod.fst).Nodup)
    (perm : members.Perm others) (name : String) :
    valueOf? name others = valueOf? name members := by
  have distinct_too : (others.map Prod.fst).Nodup := (perm.map _).nodup_iff.mp distinct
  refine Option.ext fun value => ?_
  rw [valueOf?_eq_some_iff distinct, valueOf?_eq_some_iff distinct_too, perm.mem_iff]

end

/-- A payload is checked parameter by parameter, and only the values of the parameters count. -/
theorem payloads_are_checked_by_parameter {params : List Param}
    (distinct : (params.map (·.name)).Nodup) (payload : Option Json) : Checked params payload where
  passes := exists_conform_iff distinct
  values := values_of_conform distinct
  undeclared := conform_congr
  reordered := by
    rintro members others rfl listed perm
    exact conform_congr (.object members) fun p _ => valueOf?_of_perm listed perm p.name
  notAnObject := by
    intro found
    rw [conform_eq_error_iff distinct]
    constructor
    · rintro (⟨unnamed, value, rfl, same⟩ | ⟨_, _, _, _, _, _, _, _, _, _, same⟩)
      · obtain rfl := PayloadError.notAnObject.inj same
        exact ⟨unnamed, rfl⟩
      · cases same
    · rintro ⟨unnamed, kind⟩
      obtain ⟨value, rfl, rfl⟩ := Option.map_eq_some_iff.mp kind
      exact .inl ⟨unnamed, value, rfl, rfl⟩
  typeMismatch := by
    intro path expected found
    rw [conform_eq_error_iff distinct]
    constructor
    · rintro (⟨_, _, _, same⟩ | ⟨members, earlier, p, later, value, holds, shape, suited, has,
        refuses, same⟩)
      · cases same
      · obtain ⟨rfl, rfl, rfl⟩ := PayloadError.typeMismatch.inj same
        exact ⟨members, earlier, p, later, value, holds, shape, suited, has, refuses, rfl, rfl, rfl⟩
    · rintro ⟨members, earlier, p, later, value, holds, shape, suited, has, refuses, rfl, rfl, rfl⟩
      exact .inr ⟨members, earlier, p, later, value, holds, shape, suited, has, refuses, rfl⟩

/-- Two parameters have values of wrong types, and the one that is declared first decides. -/
theorem payloads_are_checked_by_parameter_label :
    let params : List Param :=
      [⟨"label", .builtin .string⟩, ⟨"count", .builtin .uint8⟩, ⟨"ratio", .builtin .int64⟩]
    let payload : Json := .object [("ratio", .number (.float ⟨0⟩)), ("extra", .null),
      ("count", .ofInt 256)]
    (params.map (·.name)).Nodup ∧ Checked params (some payload) ∧
      conform params (some payload) = .error (.typeMismatch "count" "uint8" .number) :=
  ⟨by decide, payloads_are_checked_by_parameter (by decide) _, rfl⟩

end Payload

end DuplexRpc
