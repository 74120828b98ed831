import DuplexRpc.Proofs.Json.Spelling

/-!
# Values of documents

A document has a value when all numbers in it can be represented. Of several members of one name
the last one counts, and the order of members of different names is lost. A reader finds the
value of a document if it has room for the arrays and objects that are nested in it.
-/

namespace DuplexRpc.Json

namespace Document

mutual

/-- How deeply arrays and objects are nested in a document. -/
def height : Document → Nat
  | array items => heightOfItems items + 1
  | object members => heightOfMembers members + 1
  | _ => 0

def heightOfItems : List Document → Nat
  | [] => 0
  | item :: rest => max (height item) (heightOfItems rest)

def heightOfMembers : List (String × Document) → Nat
  | [] => 0
  | (_, value) :: rest => max (height value) (heightOfMembers rest)

end

mutual

def numerals : Document → List Numeral
  | number value => [value]
  | array items => numeralsOfItems items
  | object members => numeralsOfMembers members
  | _ => []

def numeralsOfItems : List Document → List Numeral
  | [] => []
  | item :: rest => numerals item ++ numeralsOfItems rest

def numeralsOfMembers : List (String × Document) → List Numeral
  | [] => []
  | (_, value) :: rest => numerals value ++ numeralsOfMembers rest

end

mutual

inductive Means : Document → Json → Prop
  | null : Means .null .null
  | bool (value : Bool) : Means (.bool value) (.bool value)
  | number {n : Numeral} {value : Number} (h : Number.ofNumeral? n = some value) :
      Means (.number n) (.number value)
  | string (text : String) : Means (.string text) (.string text)
  | array {items : List Document} {values : List Json} (h : MeansItems items values) :
      Means (.array items) (.array values)
  | object {members : List (String × Document)} {entries : List (String × Json)}
      (h : MeansMembers members entries) : Means (.object members) (.ofTable (.ofList entries))

inductive MeansItems : List Document → List Json → Prop
  | nil : MeansItems [] []
  | cons {item : Document} {value : Json} {items : List Document} {values : List Json}
      (h : Means item value) (hr : MeansItems items values) :
      MeansItems (item :: items) (value :: values)

inductive MeansMembers : List (String × Document) → List (String × Json) → Prop
  | nil : MeansMembers [] []
  | cons {name : String} {member : Document} {value : Json} {members : List (String × Document)}
      {entries : List (String × Json)} (h : Means member value)
      (hr : MeansMembers members entries) :
      MeansMembers ((name, member) :: members) ((name, value) :: entries)

end

mutual

/-- A document has a value when the numbers in it can be represented. -/
theorem exists_means_iff : ∀ {d : Document},
    (∃ value, d.Means value) ↔ ∀ n ∈ d.numerals, (Number.ofNumeral? n).isSome
  | .null => iff_of_true ⟨_, .null⟩ nofun
  | .bool value => iff_of_true ⟨_, .bool value⟩ nofun
  | .number n => by
      rw [numerals, List.forall_mem_singleton, Option.isSome_iff_exists]
      exact ⟨fun ⟨_, .number h⟩ => ⟨_, h⟩, fun ⟨_, h⟩ => ⟨_, .number h⟩⟩
  | .string text => iff_of_true ⟨_, .string text⟩ nofun
  | .array items => by
      rw [numerals, ← exists_meansItems_iff]
      exact ⟨fun ⟨_, .array h⟩ => ⟨_, h⟩, fun ⟨_, h⟩ => ⟨_, .array h⟩⟩
  | .object members => by
      rw [numerals, ← exists_meansMembers_iff]
      exact ⟨fun ⟨_, .object h⟩ => ⟨_, h⟩, fun ⟨_, h⟩ => ⟨_, .object h⟩⟩

theorem exists_meansItems_iff : ∀ {items : List Document},
    (∃ values, MeansItems items values) ↔
      ∀ n ∈ numeralsOfItems items, (Number.ofNumeral? n).isSome
  | [] => iff_of_true ⟨_, .nil⟩ nofun
  | item :: rest => by
      rw [numeralsOfItems, List.forall_mem_append, ← exists_means_iff, ← exists_meansItems_iff]
      constructor
      · rintro ⟨_, h⟩
        cases h with
        | cons h hr => exact ⟨⟨_, h⟩, _, hr⟩
      · rintro ⟨⟨_, h⟩, _, hr⟩
        exact ⟨_, .cons h hr⟩

theorem exists_meansMembers_iff : ∀ {members : List (String × Document)},
    (∃ entries, MeansMembers members entries) ↔
      ∀ n ∈ numeralsOfMembers members, (Number.ofNumeral? n).isSome
  | [] => iff_of_true ⟨_, .nil⟩ nofun
  | (name, value) :: rest => by
      rw [numeralsOfMembers, List.forall_mem_append, ← exists_means_iff, ← exists_meansMembers_iff]
      constructor
      · rintro ⟨_, h⟩
        cases h with
        | cons h hr => exact ⟨⟨_, h⟩, _, hr⟩
      · rintro ⟨⟨_, h⟩, _, hr⟩
        exact ⟨_, .cons h hr⟩

end

end Document

mutual

/-- A reader with enough room finds the value of a document, if it has one. -/
theorem ofTree?_eq_some_iff : ∀ {t : Tree} {d : Document}, t.Says d →
    ∀ {depth : Nat} {value : Json},
      ofTree? depth t = some value ↔ d.height ≤ depth ∧ d.Means value
  | _, _, .null, _, _ => ⟨fun | rfl => ⟨Nat.zero_le _, .null⟩, fun ⟨_, .null⟩ => rfl⟩
  | _, _, .bool b, _, _ => ⟨fun | rfl => ⟨Nat.zero_le _, .bool b⟩, fun ⟨_, .bool _⟩ => rfl⟩
  | _, _, .number n, depth, _ => by
      rw [ofTree?, Option.map_eq_some_iff]
      constructor
      · rintro ⟨value, read, rfl⟩
        exact ⟨Nat.zero_le depth, .number read⟩
      · rintro ⟨-, means⟩
        cases means with
        | number read => exact ⟨_, read, rfl⟩
  | _, _, .string decoded, depth, _ => by
      rw [ofTree?, decoded, Option.map_some, Option.some.injEq]
      constructor
      · rintro rfl
        exact ⟨Nat.zero_le depth, .string _⟩
      · rintro ⟨-, means⟩
        cases means
        rfl
  | _, _, .array h, 0, _ => iff_of_false nofun fun ⟨high, _⟩ => nomatch high
  | _, _, .array h, depth + 1, _ => by
      rw [ofTree?, Option.map_eq_some_iff, Document.height, Nat.add_le_add_iff_right]
      constructor
      · rintro ⟨values, read, rfl⟩
        obtain ⟨high, means⟩ := (ofItems?_eq_some_iff h).mp read
        exact ⟨high, .array means⟩
      · rintro ⟨high, means⟩
        cases means with
        | array means => exact ⟨_, (ofItems?_eq_some_iff h).mpr ⟨high, means⟩, rfl⟩
  | _, _, .object h, 0, _ => iff_of_false nofun fun ⟨high, _⟩ => nomatch high
  | _, _, .object h, depth + 1, _ => by
      rw [ofTree?, Option.map_eq_some_iff, Document.height, Nat.add_le_add_iff_right]
      constructor
      · rintro ⟨entries, read, rfl⟩
        obtain ⟨high, means⟩ := (ofMembers?_eq_some_iff h).mp read
        exact ⟨high, .object means⟩
      · rintro ⟨high, means⟩
        cases means with
        | object means => exact ⟨_, (ofMembers?_eq_some_iff h).mpr ⟨high, means⟩, rfl⟩

theorem ofItems?_eq_some_iff : ∀ {items : List Tree} {documents : List Document},
    Tree.SaysItems items documents → ∀ {depth : Nat} {values : List Json},
      ofItems? depth items = some values ↔
        Document.heightOfItems documents ≤ depth ∧ Document.MeansItems documents values
  | _, _, .nil, _, _ => ⟨fun | rfl => ⟨Nat.zero_le _, .nil⟩, fun ⟨_, .nil⟩ => rfl⟩
  | _, _, .cons h hr, depth, _ => by
      rw [ofItems?, Document.heightOfItems, Nat.max_le]
      constructor
      · intro read
        split at read
        next value first =>
          obtain ⟨values, rest, rfl⟩ := Option.map_eq_some_iff.mp read
          obtain ⟨high, means⟩ := (ofTree?_eq_some_iff h).mp first
          obtain ⟨highs, meanings⟩ := (ofItems?_eq_some_iff hr).mp rest
          exact ⟨⟨high, highs⟩, .cons means meanings⟩
        next => cases read
      · rintro ⟨⟨high, highs⟩, means⟩
        cases means with
        | cons means meanings =>
            rw [(ofTree?_eq_some_iff h).mpr ⟨high, means⟩]
            simp only [(ofItems?_eq_some_iff hr).mpr ⟨highs, meanings⟩, Option.map_some]

theorem ofMembers?_eq_some_iff : ∀ {members : List (List StringPart × Tree)}
    {documents : List (String × Document)}, Tree.SaysMembers members documents →
      ∀ {depth : Nat} {entries : List (String × Json)},
        ofMembers? depth members = some entries ↔
          Document.heightOfMembers documents ≤ depth ∧ Document.MeansMembers documents entries
  | _, _, .nil, _, _ => ⟨fun | rfl => ⟨Nat.zero_le _, .nil⟩, fun ⟨_, .nil⟩ => rfl⟩
  | _, _, .cons decoded h hr, depth, _ => by
      rw [ofMembers?, Document.heightOfMembers, Nat.max_le, decoded]
      constructor
      · intro read
        split at read
        next name value found first =>
          obtain rfl := Option.some.inj found
          obtain ⟨entries, rest, rfl⟩ := Option.map_eq_some_iff.mp read
          obtain ⟨high, means⟩ := (ofTree?_eq_some_iff h).mp first
          obtain ⟨highs, meanings⟩ := (ofMembers?_eq_some_iff hr).mp rest
          exact ⟨⟨high, highs⟩, .cons means meanings⟩
        next => cases read
      · rintro ⟨⟨high, highs⟩, means⟩
        cases means with
        | cons means meanings =>
            rw [(ofTree?_eq_some_iff h).mpr ⟨high, means⟩]
            simp only [(ofMembers?_eq_some_iff hr).mpr ⟨highs, meanings⟩, Option.map_some]

end

end DuplexRpc.Json
