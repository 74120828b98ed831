import DuplexRpc.Proofs.Definition
import DuplexRpc.Proofs.Definition.Language
import Mathlib.Logic.Relation

/-!
# References between the parts of a service

The entries of a parsed service agree with the keys that they are found under and with
one another. A type holds its referents outright, and each of them is what its own name
means in the service. So to follow references by name is to go down into a type: it never
comes back to a name that has been passed, and it ends in builtin types.
-/

namespace DuplexRpc

open Relation

/-! ### Referents -/

namespace DataType

/-- From the first type the second one is reached by following references. -/
def Reaches : DataType → DataType → Prop := ReflTransGen fun type next => next ∈ type.referents

/-- A referent is a proper part of the type that refers to it. -/
theorem sizeOf_referent {type next : DataType} (h : next ∈ type.referents) :
    sizeOf next < sizeOf type := by
  cases type with
  | builtin b => cases h
  | simple name target =>
      obtain rfl := List.mem_singleton.mp h
      simp only [simple.sizeOf_spec]
      omega
  | slice name element =>
      obtain rfl := List.mem_singleton.mp h
      simp only [slice.sizeOf_spec]
      omega
  | map name key value =>
      have parts : next = key ∨ next = value := by simpa [referents] using h
      simp only [map.sizeOf_spec]
      rcases parts with rfl | rfl <;> omega
  | struct name fields =>
      obtain ⟨⟨field, type⟩, listed, rfl⟩ := List.mem_map.mp h
      have whole := List.sizeOf_lt_of_mem listed
      simp only [Prod.mk.sizeOf_spec] at whole
      simp only [struct.sizeOf_spec]
      omega

end DataType

namespace Service

/-- Under the first name there is a type that refers to a type of the second name. -/
def RefersTo (s : Service) (name next : String) : Prop :=
  ∃ type referent, s.lookupType name = some type ∧ referent ∈ type.referents ∧
    referent.name = next

/-! ### Consistency -/

/-- What holds of the parts of a service and between them. -/
structure Consistent (s : Service) : Prop where
  /-- A procedure stands under its name in the table of its side. A oneway procedure has no return
  values, parameters of one list have different names, and their types are builtin and not
  `bool`. -/
  procedures : s.WellFormed
  /-- No two procedures are declared on one line, and none on the first. -/
  lines : ∀ {side other name key p q}, (s.procedures side).find? name = some p →
    (s.procedures other).find? key = some q → p.line = q.line → side = other ∧ name = key
  line_ge : ∀ {side name p}, (s.procedures side).find? name = some p → 2 ≤ p.line
  types_name : ∀ {key type}, s.types.find? key = some type → type.name = key
  notBuiltin : ∀ b : Builtin, s.types.find? b.name = none
  notStruct : ∀ {key type}, s.types.find? key = some type → type.category ≠ .struct
  /-- Every type that is reached from an entry is the one that its name means. -/
  closed : ∀ {key type reached}, s.types.find? key = some type → type.Reaches reached →
    s.lookupType reached.name = some reached ∧ reached.category ≠ .struct
  /-- To follow references by name from an entry leads to other names all the time. -/
  acyclic : ∀ {key path}, (s.types.find? key).isSome → List.IsChain s.RefersTo (key :: path) →
    (key :: path).Nodup
  /-- It cannot go on for ever, wherever it begins. -/
  wellFounded : WellFounded fun next name => s.RefersTo name next
  /-- It stops at the names of builtin types, and only there. -/
  leaves : ∀ {key name}, (s.types.find? key).isSome → ReflTransGen s.RefersTo key name →
    ((¬ ∃ next, s.RefersTo name next) ↔ ∃ b : Builtin, b.name = name)

end Service

/-! ### Meanings and references -/

namespace Grammar

variable {body : List Line} {name : String} {type next : DataType}

/-- The referents of what a name means are what their own names mean. -/
theorem Means.referent (h : Means body name type) (listed : next ∈ type.referents) :
    Means body next.name next := by
  have named : ∀ {target t}, Means body target t → Means body t.name t := by
    intro target t means
    rwa [means.name_eq]
  cases h with
  | builtin b => cases listed
  | simple line target_means =>
      obtain rfl := List.mem_singleton.mp listed
      exact named target_means
  | slice line element_means =>
      obtain rfl := List.mem_singleton.mp listed
      exact named element_means
  | map line key_means value_means =>
      obtain rfl | listed := List.mem_cons.mp listed
      · exact named key_means
      · obtain rfl := List.mem_singleton.mp listed
        exact named value_means

theorem Means.reaches (h : Means body name type) (reached : type.Reaches next) :
    Means body next.name next := by
  induction reached with
  | refl => rwa [h.name_eq]
  | tail _ listed ih => exact ih.referent listed

theorem Means.category_ne_struct (h : Means body name type) : type.category ≠ .struct := by
  cases h <;> exact nofun

/-- What refers to nothing is builtin. -/
theorem Means.referents_eq_nil_iff (h : Means body name type) :
    type.referents = [] ↔ ∃ b, type = .builtin b := by
  cases h <;> simp [DataType.referents]

namespace Defines

variable {d : Declarations} {service : Service}

/-- Two entries for procedures that are declared on one line are the same entry. -/
theorem eq_of_line (h : Defines d service) {side other : Side} {name key : String}
    {p q : Procedure} (hp : (service.procedures side).find? name = some p)
    (hq : (service.procedures other).find? key = some q) (same : p.line = q.line) :
    side = other ∧ name = key := by
  obtain ⟨i, statement, at_line, rfl, rfl, rfl⟩ := (h.procedures side name p).mp hp
  obtain ⟨j, declared, at_other, rfl, rfl, rfl⟩ := (h.procedures other key q).mp hq
  have index : i = j := Nat.add_right_cancel same
  rw [index, at_other] at at_line
  obtain rfl := Line.procedure.inj (Option.some.inj at_line)
  exact ⟨rfl, rfl⟩

theorem two_le_line (h : Defines d service) {side : Side} {name : String} {p : Procedure}
    (hp : (service.procedures side).find? name = some p) : 2 ≤ p.line := by
  obtain ⟨i, statement, _, _, _, rfl⟩ := (h.procedures side name p).mp hp
  exact Nat.le_add_left 2 i

/-- A reference by name is one from the type of the first name to that of the second. -/
theorem refersTo_iff (h : Defines d service) (valid : Valid d.body) {name next : String} :
    service.RefersTo name next ↔ ∃ type referent, Means d.body name type ∧
      referent ∈ type.referents ∧ Means d.body next referent := by
  constructor
  · rintro ⟨type, referent, found, listed, rfl⟩
    have means := (h.lookupType_eq_some_iff valid).mp found
    exact ⟨type, referent, means, listed, means.referent listed⟩
  · rintro ⟨type, referent, means, listed, meant⟩
    exact ⟨type, referent, (h.lookupType_eq_some_iff valid).mpr means, listed, meant.name_eq⟩

/-- References by name lead to ever smaller types. -/
theorem sizeOf_refersTo (h : Defines d service) (valid : Valid d.body) {name next : String}
    (refers : service.RefersTo name next) :
    sizeOf (service.lookupType next) < sizeOf (service.lookupType name) := by
  obtain ⟨type, referent, means, listed, meant⟩ := (h.refersTo_iff valid).mp refers
  rw [(h.lookupType_eq_some_iff valid).mpr means, (h.lookupType_eq_some_iff valid).mpr meant]
  have smaller := DataType.sizeOf_referent listed
  simp
  omega

/-- A name that is reached by following references means something. -/
theorem exists_means_of_reached (h : Defines d service) (valid : Valid d.body) {key name : String}
    (found : (service.types.find? key).isSome) (reached : ReflTransGen service.RefersTo key name) :
    ∃ type, Means d.body name type := by
  cases reached with
  | refl =>
      obtain ⟨type, found⟩ := Option.isSome_iff_exists.mp found
      exact ⟨type, ((h.types key type).mp found).2⟩
  | tail _ last =>
      obtain ⟨_, referent, _, _, meant⟩ := (h.refersTo_iff valid).mp last
      exact ⟨referent, meant⟩

/-- A name leads no further exactly if it is that of a builtin type. -/
theorem no_refersTo_iff (h : Defines d service) (valid : Valid d.body) {name : String}
    {type : DataType} (means : Means d.body name type) :
    (¬ ∃ next, service.RefersTo name next) ↔ ∃ b : Builtin, b.name = name := by
  have found := (h.lookupType_eq_some_iff valid).mpr means
  constructor
  · intro stuck
    have none_listed : type.referents = [] := by
      refine List.eq_nil_iff_forall_not_mem.mpr fun referent listed => stuck ?_
      exact ⟨referent.name, type, referent, found, listed, rfl⟩
    obtain ⟨b, rfl⟩ := means.referents_eq_nil_iff.mp none_listed
    exact ⟨b, means.name_eq⟩
  · rintro ⟨b, rfl⟩ ⟨next, other, referent, other_found, listed, _⟩
    have builtin : service.lookupType b.name = some (.builtin b) :=
      DataType.resolve_builtin service.types b
    rw [builtin] at other_found
    obtain rfl := Option.some.inj other_found
    cases listed

/-- What valid lines define is consistent. -/
theorem consistent (h : Defines d service) (valid : Valid d.body) (wf : service.WellFormed) :
    service.Consistent where
  procedures := wf
  lines := h.eq_of_line
  line_ge := h.two_le_line
  types_name found := ((h.types _ _).mp found).2.name_eq
  notBuiltin b := (h.find?_eq_none_iff valid).mpr (valid.notBuiltin b)
  notStruct found := ((h.types _ _).mp found).2.category_ne_struct
  closed := by
    intro key type reached found path
    have means := ((h.types key type).mp found).2.reaches path
    exact ⟨(h.lookupType_eq_some_iff valid).mpr means, means.category_ne_struct⟩
  acyclic := by
    intro key path _ chain
    -- the sizes of the types fall along the path
    have falling : List.IsChain (fun name next =>
        sizeOf (service.lookupType next) < sizeOf (service.lookupType name)) (key :: path) :=
      chain.imp fun _ _ refers => h.sizeOf_refersTo valid refers
    have : IsTrans String fun name next =>
        sizeOf (service.lookupType next) < sizeOf (service.lookupType name) :=
      ⟨fun _ _ _ first second => Nat.lt_trans second first⟩
    refine (List.isChain_iff_pairwise.mp falling).imp ?_
    rintro name _ smaller rfl
    exact Nat.lt_irrefl _ smaller
  wellFounded :=
    Subrelation.wf (fun refers => h.sizeOf_refersTo valid refers)
      (InvImage.wf (fun name => sizeOf (service.lookupType name)) Nat.lt_wfRel.wf)
  leaves := by
    intro key name found reached
    obtain ⟨type, means⟩ := h.exists_means_of_reached valid found reached
    exact h.no_refersTo_iff valid means

end Defines

end Grammar

/-! ### Parsed services -/

namespace Service

open Grammar

/-- Only lines are accepted. -/
theorem lines_of_judgeItems {s t : Service} {number : Nat} {items : List Item}
    (h : s.judgeItems number items = .ok t) :
    ∃ lines : List (List Char), items = lines.map fun line => .line (String.ofList line) := by
  induction items generalizing s number with
  | nil => exact ⟨[], rfl⟩
  | cons item more ih =>
      cases item with
      | failure reason => cases h
      | line text =>
          unfold judgeItems at h
          split at h
          next next_service _ =>
            obtain ⟨lines, rfl⟩ := ih h
            refine ⟨text.toList :: lines, ?_⟩
            rw [List.map_cons, String.ofList_toList]
          next => cases h

theorem lines_of_ofItems {s : Service} {items : List Item} (h : ofItems items = .ok s) :
    ∃ lines : List (List Char), items = lines.map fun line => .line (String.ofList line) := by
  unfold ofItems at h
  split at h
  next => cases h
  next => cases h
  next text body =>
    split at h
    next name _ =>
      obtain ⟨lines, rfl⟩ := lines_of_judgeItems h
      refine ⟨text.toList :: lines, ?_⟩
      rw [List.map_cons, String.ofList_toList]
    next => cases h

/-- A parsed service is defined by valid declarations, however its text has reached the parser. -/
theorem exists_defines_of_parse {source : Source} {s : Service} (h : parse source = .ok s) :
    ∃ d, Valid d.body ∧ Defines d s := by
  obtain ⟨lines, items⟩ := lines_of_ofItems h
  rw [parse, items] at h
  obtain ⟨d, _, valid, defines⟩ := ofItems_eq_ok_iff.mp h
  exact ⟨d, valid, defines⟩

/-- Whatever a source hands out and in whatever pieces, a service that is parsed from it is
consistent. -/
theorem consistent_of_parse {source : Source} {s : Service} (h : parse source = .ok s) :
    s.Consistent := by
  obtain ⟨d, valid, defines⟩ := exists_defines_of_parse h
  exact defines.consistent valid (wellFormed_of_parse h)

/-- A definition in pieces, whose last type refers to builtin types over two others. -/
def shopSource : Source :=
  [.bytes (Text.utf8 "name shop\r\ntype id uin"), .interrupt,
    .bytes (Text.utf8 "t64\ntype ids []id\n\nserver list(first uint64)(n int)"),
    .bytes (Text.utf8 "\ntype index map[string]ids\nclient oneway list()")]

def shopService : Service :=
  let id : DataType := .simple "id" (.builtin .uint64)
  let ids : DataType := .slice "ids" id
  Service.named "shop"
    |>.addType id
    |>.addType ids
    |>.addProcedure
      { name := "list", side := .server, oneway := false,
        args := [⟨"first", .builtin .uint64⟩], rets := [⟨"n", .builtin .int⟩], line := 5 }
    |>.addType (.map "index" (.builtin .string) ids)
    |>.addProcedure
      { name := "list", side := .client, oneway := true, args := [], rets := [], line := 7 }

theorem consistent_of_parse_shop : parse shopSource = .ok shopService ∧ shopService.Consistent :=
  have parsed : parse shopSource = .ok shopService := eq_ok_of_toOption (by decide +kernel)
  ⟨parsed, consistent_of_parse parsed⟩

end Service

end DuplexRpc
