import DuplexRpc.Proofs.Envelope
import DuplexRpc.Proofs.Json.Values
import Mathlib.Data.List.Forall2

/-!
# What an envelope may look like

An object is an envelope when its known members are in order: one that tells the kind, and at most
one each for the procedure, the callback id, the data and the error. The envelope is what these
members tell. The order of the members, members of other names and the spelling of the text have
no part in it.
-/

namespace DuplexRpc

namespace Envelope

open Json Json.Productions

/-- The values that members have under a name, in the order of the text. -/
def valuesOf (name : String) (members : List (String × Document)) : List Document :=
  (members.filter (·.1 == name)).map Prod.snd

/-! ### What members tell -/

/-- A kind is told by its word, or by an object with null under the word and nothing else. -/
inductive TellsKind : Document → MessageKind → Prop
  | word (kind : MessageKind) : TellsKind (.string kind.word) kind
  | member (kind : MessageKind) : TellsKind (.object [(kind.word, .null)]) kind

/-- A text is told by a string. -/
def TellsText (d : Document) (text : String) : Prop := d = .string text

/-- A callback id is told by its digits, without sign, point and exponent. -/
inductive TellsId : Document → CallbackId → Prop
  | intro {n : Numeral} {id : CallbackId} (unsigned : n.negative = false)
      (noFraction : n.fraction = none) (noExponent : n.exponent = none)
      (value : digitsValue n.whole = id.value.toNat) : TellsId (.number n) id

/-- Data are told by their value. The envelope around them takes up one level of nesting. -/
inductive TellsData : Document → Option Json → Prop
  | null : TellsData .null none
  | value {d : Document} {value : Json} (notNull : d ≠ .null) (room : d.height ≤ maxDepth - 1)
      (means : d.Means value) : TellsData d (some value)

/-- An error is told by an object that has one type and one message, or by an array of the two. -/
inductive TellsError : Document → Option RemoteError → Prop
  | null : TellsError .null none
  | array (e : RemoteError) : TellsError (.array [.string e.type, .string e.message]) (some e)
  | object {members : List (String × Document)} (e : RemoteError)
      (type : valuesOf "type" members = [.string e.type])
      (message : valuesOf "message" members = [.string e.message]) :
      TellsError (.object members) (some e)

/-- What the values of a name tell, of which there is at most one. -/
inductive Gives {α : Type} (tells : Document → α → Prop) (missing : α) : List Document → α → Prop
  | absent : Gives tells missing [] missing
  | present {d : Document} {value : α} (h : tells d value) : Gives tells missing [d] value

/-- The envelope that members tell. -/
structure Describes (members : List (String × Document)) (e : Envelope) : Prop where
  kind : ∃ d, valuesOf "type" members = [d] ∧ TellsKind d e.kind
  procedure : Gives TellsText "" (valuesOf "procedure" members) e.procedure
  callbackId : Gives TellsId .none (valuesOf "cb_id" members) e.callbackId
  data : Gives TellsData none (valuesOf "data" members) e.data
  error : Gives TellsError none (valuesOf "error" members) e.error

/-! ### Members in order -/

/-- There is at most one value, and if there is one it has the given form. -/
def AtMostOne (form : Document → Prop) (values : List Document) : Prop :=
  values = [] ∨ ∃ d, values = [d] ∧ form d

/-- An error that can be read, or null. -/
def IsError (d : Document) : Prop :=
  d = .null ∨ (∃ type message, d = .array [.string type, .string message]) ∨
    ∃ members type message, d = .object members ∧ valuesOf "type" members = [.string type] ∧
      valuesOf "message" members = [.string message]

/-- The members that an envelope may have. -/
structure Acceptable (members : List (String × Document)) : Prop where
  kind : ∃ d, valuesOf "type" members = [d] ∧
    (d = .string "req" ∨ d = .string "res" ∨ d = .object [("req", .null)] ∨
      d = .object [("res", .null)])
  procedure : AtMostOne (fun d => ∃ text, d = .string text) (valuesOf "procedure" members)
  /-- Minus zero has a sign and is no callback id. -/
  callbackId : AtMostOne (fun d => ∃ n : Numeral, d = .number n ∧ n.negative = false ∧
      n.fraction = none ∧ n.exponent = none ∧ digitsValue n.whole < 1 <<< 64)
    (valuesOf "cb_id" members)
  /-- Data are nested no more than 126 deep, and every number in them can be represented. -/
  data : AtMostOne (fun d => d.height ≤ 126 ∧ ∀ n ∈ d.numerals, (Number.ofNumeral? n).isSome)
    (valuesOf "data" members)
  error : AtMostOne IsError (valuesOf "error" members)

/-! ### Members alike -/

/-- Members in another order, with members of other names than the given ones put in or taken out
anywhere. -/
inductive Rearranged (names : List String) :
    List (String × Document) → List (String × Document) → Prop
  | reordered {members others : List (String × Document)} (h : members.Perm others) :
      Rearranged names members others
  | inserted {name : String} (value : Document) (unknown : name ∉ names)
      (earlier later : List (String × Document)) :
      Rearranged names (earlier ++ later) (earlier ++ (name, value) :: later)
  | symm {members others : List (String × Document)} (h : Rearranged names members others) :
      Rearranged names others members
  | trans {members others more : List (String × Document)} (h : Rearranged names members others)
      (k : Rearranged names others more) : Rearranged names members more

/-- Members rearranged, those of the envelope as well as those of its error. -/
inductive Alike : List (String × Document) → List (String × Document) → Prop
  | rearranged {members others : List (String × Document)}
      (h : Rearranged ["type", "procedure", "cb_id", "data", "error"] members others) :
      Alike members others
  | error {members others : List (String × Document)}
      (h : Rearranged ["type", "message"] members others)
      (earlier later : List (String × Document)) :
      Alike (earlier ++ ("error", .object members) :: later)
        (earlier ++ ("error", .object others) :: later)
  | trans {members others more : List (String × Document)} (h : Alike members others)
      (k : Alike others more) : Alike members more

/-- What is read of a text that spells an object. -/
structure ReadByMembers (bytes : Bytes) (members : List (String × Document)) : Prop where
  /-- The envelope is what the known members tell. -/
  decoded : ∀ e, ofBytes? bytes = some e ↔ Describes members e
  /-- There is one when these members are in order. -/
  accepted : (∃ e, ofBytes? bytes = some e) ↔ Acceptable members
  /-- Another text of the same members is read alike, also if they have been rearranged. -/
  alike : ∀ {other : Bytes} {others : List (String × Document)}, SpellsText other (.object others) →
    Alike members others → ofBytes? other = ofBytes? bytes

/-! ### Reading members -/

section

variable {t : Tree} {d : Document}

theorem string?_eq_some_iff (h : t.Says d) {text : String} :
    string? t = some text ↔ TellsText d text := by
  unfold TellsText
  cases h with
  | string decoded => rw [string?, decoded, Option.some.injEq, Document.string.injEq]
  | null | bool | number | array | object => refine iff_of_false ?_ ?_ <;> rintro ⟨⟩

theorem kindOfWord?_eq_some_iff {word : String} {kind : MessageKind} :
    kindOfWord? word = some kind ↔ word = kind.word := by
  constructor
  · intro named
    unfold kindOfWord? at named
    split at named
    next request =>
      obtain rfl := Option.some.inj named
      exact request
    next =>
      split at named
      next response =>
        obtain rfl := Option.some.inj named
        exact response
      next => cases named
  · rintro rfl
    cases kind <;> rfl

theorem kind?_eq_some_iff (h : t.Says d) {kind : MessageKind} :
    kind? t = some kind ↔ TellsKind d kind := by
  cases h with
  | string decoded =>
      rw [kind?, decoded, Option.bind_some, kindOfWord?_eq_some_iff]
      constructor
      · rintro rfl
        exact .word kind
      · rintro ⟨⟩
        rfl
  | object members =>
      cases members with
      | nil => refine iff_of_false ?_ ?_ <;> rintro ⟨⟩
      | cons decoded value more =>
          cases value with
          | null =>
              cases more with
              | nil =>
                  rw [kind?, decoded, Option.bind_some, kindOfWord?_eq_some_iff]
                  constructor
                  · rintro rfl
                    exact .member kind
                  · rintro ⟨⟩
                    rfl
              | cons => refine iff_of_false ?_ ?_ <;> rintro ⟨⟩
          | bool | number | string | array | object => refine iff_of_false ?_ ?_ <;> rintro ⟨⟩
  | null | bool | number | array => refine iff_of_false ?_ ?_ <;> rintro ⟨⟩

/-- Integers that are not negative are spelled without a minus. -/
theorem integer?_nonneg_iff {n : Numeral} {value : Int} :
    n.integer? = some value ∧ 0 ≤ value ↔ n.negative = false ∧ n.fraction = none ∧
      n.exponent = none ∧ value = Int.ofNat (digitsValue n.whole) := by
  obtain ⟨negative, whole, fraction, exponent⟩ := n
  cases fraction with
  | some _ => simp [Numeral.integer?]
  | none =>
      cases exponent with
      | some _ => simp [Numeral.integer?]
      | none =>
          cases negative with
          | true =>
              by_cases zero : digitsValue whole = 0
              · simp [Numeral.integer?, zero]
              · simp only [Numeral.integer?, zero, Option.isSome_none, Bool.or_self, if_true,
                  if_false, Bool.false_eq_true, Option.some.injEq]
                refine iff_of_false ?_ ?_
                · rintro ⟨rfl, nonneg⟩
                  simp only [Int.ofNat_eq_natCast] at nonneg
                  omega
                · rintro ⟨⟨⟩, -⟩
          | false =>
              simp only [Numeral.integer?, Option.isSome_none, Bool.or_self, if_false,
                Bool.false_eq_true, Option.some.injEq, true_and]
              constructor
              · rintro ⟨rfl, -⟩
                rfl
              · rintro rfl
                exact ⟨rfl, Int.natCast_nonneg _⟩

theorem callbackId?_eq_some_iff (h : t.Says d) {id : CallbackId} :
    callbackId? t = some id ↔ TellsId d id := by
  cases h with
  | number n =>
      constructor
      · intro read
        unfold callbackId? at read
        simp only at read
        split at read
        next value found =>
          split at read
          next inRange =>
            obtain rfl := Option.some.inj read
            obtain ⟨unsigned, noFraction, noExponent, rfl⟩ :=
              integer?_nonneg_iff.mp ⟨found, inRange.1⟩
            have bound : digitsValue n.whole < 1 <<< 64 := Int.ofNat_lt.mp inRange.2
            refine .intro unsigned noFraction noExponent ?_
            rw [Int.ofNat_eq_natCast, Int.toNat_natCast, UInt64.toNat_ofNat']
            exact (Nat.mod_eq_of_lt bound).symm
          next => cases read
        next => cases read
      · rintro @⟨_, _, unsigned, noFraction, noExponent, value⟩
        obtain ⟨found, nonneg⟩ := integer?_nonneg_iff.mpr ⟨unsigned, noFraction, noExponent, rfl⟩
        have bound : Int.ofNat (digitsValue n.whole) < 1 <<< 64 := by
          rw [value]
          exact Int.ofNat_lt.mpr id.value.toNat_lt
        unfold callbackId?
        simp only [found, nonneg, bound, and_self, if_true]
        rw [value, Int.ofNat_eq_natCast, Int.toNat_natCast, UInt64.ofNat_toNat]
  | null | bool | string | array | object => refine iff_of_false ?_ ?_ <;> rintro ⟨⟩

theorem data?_eq_some_iff (h : t.Says d) {data : Option Json} :
    data? t = some data ↔ TellsData d data := by
  by_cases null : d = .null
  · subst null
    cases h
    constructor
    · rintro ⟨⟩
      exact .null
    · rintro (_ | ⟨notNull, -, -⟩)
      · rfl
      · exact absurd rfl notNull
  · have read : data? t = (Json.ofTree? (maxDepth - 1) t).map some := by
      cases h with
      | null => exact absurd rfl null
      | bool | number | string | array | object => rfl
    rw [read, Option.map_eq_some_iff]
    constructor
    · rintro ⟨value, found, rfl⟩
      obtain ⟨room, means⟩ := (ofTree?_eq_some_iff h).mp found
      exact .value null room means
    · rintro (_ | ⟨_, room, means⟩)
      · exact absurd rfl null
      · exact ⟨_, (ofTree?_eq_some_iff h).mpr ⟨room, means⟩, rfl⟩

end

/-- Members by name, each with a tree that says what the member of the document says. -/
abbrev SayMembers : List (String × Tree) → List (String × Document) → Prop :=
  List.Forall₂ fun member document => member.1 = document.1 ∧ member.2.Says document.2

section

variable {named : List (String × Tree)} {members : List (String × Document)}

theorem exists_members?_of_says {trees : List (List StringPart × Tree)}
    (h : Tree.SaysMembers trees members) : ∃ named, members? trees = some named ∧
      SayMembers named members := by
  induction trees generalizing members with
  | nil =>
      cases h
      exact ⟨[], rfl, .nil⟩
  | cons tree trees ih =>
      cases h with
      | @cons _ name value _ _ _ decoded h hr =>
          obtain ⟨named, read, said⟩ := ih hr
          refine ⟨(name, value) :: named, ?_, .cons ⟨rfl, h⟩ said⟩
          rw [members?, decoded]
          simp only [read, Option.map_some]

/-- Under a name there is no member, one or more of them. -/
theorem member?_cases (h : SayMembers named members) (name : String) :
    (valuesOf name members = [] ∧ member? named name = some none) ∨
      (∃ t d, t.Says d ∧ valuesOf name members = [d] ∧ member? named name = some (some t)) ∨
      (2 ≤ (valuesOf name members).length ∧ member? named name = none) := by
  have same : SayMembers (named.filter (·.1 == name)) (members.filter (·.1 == name)) := by
    induction h with
    | nil => exact .nil
    | @cons member document _ _ first rest ih =>
        rw [List.filter_cons, List.filter_cons, first.1]
        split
        · exact .cons first ih
        · exact ih
  unfold valuesOf member?
  generalize named.filter (·.1 == name) = found at same
  generalize members.filter (·.1 == name) = documents at same
  cases same with
  | nil => exact .inl ⟨rfl, rfl⟩
  | cons first rest =>
      cases rest with
      | nil => exact .inr (.inl ⟨_, _, first.2, rfl, rfl⟩)
      | cons second rest => exact .inr (.inr ⟨by simp, rfl⟩)

variable {α : Type} {read? : Tree → Option α} {tells : Document → α → Prop}

/-- A member that is required. -/
theorem member?_required_iff (h : SayMembers named members)
    (agree : ∀ {t d}, t.Says d → ∀ {value}, read? t = some value ↔ tells d value) {name : String}
    {value : α} : (∃ t, member? named name = some (some t) ∧ read? t = some value) ↔
      ∃ d, valuesOf name members = [d] ∧ tells d value := by
  obtain ⟨none, read⟩ | ⟨t, d, said, one, read⟩ | ⟨many, read⟩ := member?_cases h name
  · rw [none, read]
    refine iff_of_false ?_ ?_ <;> rintro ⟨_, ⟨⟩, _⟩
  · rw [one, read]
    constructor
    · rintro ⟨_, ⟨⟩, found⟩
      exact ⟨d, rfl, (agree said).mp found⟩
    · rintro ⟨_, ⟨⟩, told⟩
      exact ⟨t, rfl, (agree said).mpr told⟩
  · rw [read]
    refine iff_of_false ?_ ?_
    · rintro ⟨_, ⟨⟩, _⟩
    · rintro ⟨d, one, -⟩
      rw [one] at many
      exact absurd many (by simp)

/-- A member that may be missing. -/
theorem member?_optional_iff (h : SayMembers named members)
    (agree : ∀ {t d}, t.Says d → ∀ {value}, read? t = some value ↔ tells d value) {name : String}
    {missing value : α} :
    (∃ found, member? named name = some found ∧
        (found.map read?).getD (some missing) = some value) ↔
      Gives tells missing (valuesOf name members) value := by
  obtain ⟨none, read⟩ | ⟨t, d, said, one, read⟩ | ⟨many, read⟩ := member?_cases h name
  · rw [none, read]
    constructor
    · rintro ⟨_, ⟨⟩, found⟩
      obtain rfl := Option.some.inj found
      exact .absent
    · rintro ⟨⟩
      exact ⟨_, rfl, rfl⟩
  · rw [one, read]
    constructor
    · rintro ⟨_, ⟨⟩, found⟩
      exact .present ((agree said).mp found)
    · rintro (_ | told)
      exact ⟨_, rfl, (agree said).mpr told⟩
  · rw [read]
    refine iff_of_false ?_ fun given => ?_
    · rintro ⟨_, ⟨⟩, _⟩
    · generalize valuesOf name members = values at many given
      cases given <;> simp at many

end

theorem remoteErrorOf?_eq_some_iff {type message : Option Tree} {e : RemoteError} :
    remoteErrorOf? type message = some e ↔
      (∃ t, type = some t ∧ string? t = some e.type) ∧
        ∃ t, message = some t ∧ string? t = some e.message := by
  simp only [remoteErrorOf?, Option.bind_eq_bind, Option.bind_eq_some_iff]
  constructor
  · rintro ⟨a, ha, type, htype, b, hb, message, hmessage, same⟩
    obtain rfl := Option.some.inj same
    exact ⟨⟨a, ha, htype⟩, b, hb, hmessage⟩
  · rintro ⟨⟨a, ha, htype⟩, b, hb, hmessage⟩
    exact ⟨a, ha, _, htype, b, hb, _, hmessage, rfl⟩

/-- The error with the members of an object. -/
theorem remoteError_iff {named : List (String × Tree)} {members : List (String × Document)}
    (h : SayMembers named members) {e : RemoteError} :
    (∃ type, member? named "type" = some type ∧ ∃ message,
      member? named "message" = some message ∧ remoteErrorOf? type message = some e) ↔
        valuesOf "type" members = [.string e.type] ∧
          valuesOf "message" members = [.string e.message] := by
  have field : ∀ {name text}, (∃ t, member? named name = some (some t) ∧ string? t = some text) ↔
      valuesOf name members = [.string text] := by
    intro name text
    rw [member?_required_iff h string?_eq_some_iff]
    constructor
    · rintro ⟨_, one, rfl⟩
      exact one
    · exact fun one => ⟨_, one, rfl⟩
  rw [← field, ← field]
  simp only [remoteErrorOf?_eq_some_iff]
  constructor
  · rintro ⟨_, ha, _, hb, ⟨a, rfl, htype⟩, b, rfl, hmessage⟩
    exact ⟨⟨a, ha, htype⟩, b, hb, hmessage⟩
  · rintro ⟨⟨a, ha, htype⟩, b, hb, hmessage⟩
    exact ⟨_, ha, _, hb, ⟨a, rfl, htype⟩, b, rfl, hmessage⟩

theorem error?_eq_some_iff {t : Tree} {d : Document} (h : t.Says d) {error : Option RemoteError} :
    error? t = some error ↔ TellsError d error := by
  cases h with
  | null =>
      constructor
      · rintro ⟨⟩
        exact .null
      · rintro ⟨⟩
        rfl
  | array items =>
      obtain _ | ⟨first, _ | ⟨second, _ | ⟨_, _⟩⟩⟩ := items
      · refine iff_of_false ?_ ?_ <;> rintro ⟨⟩
      · refine iff_of_false ?_ ?_ <;> rintro ⟨⟩
      · rw [error?, Option.map_eq_some_iff]
        simp only [remoteErrorOf?_eq_some_iff, Option.some.injEq]
        constructor
        · rintro ⟨e, ⟨⟨_, rfl, type⟩, _, rfl, message⟩, rfl⟩
          obtain rfl := (string?_eq_some_iff first).mp type
          obtain rfl := (string?_eq_some_iff second).mp message
          exact .array e
        · rintro (_ | e)
          exact ⟨e, ⟨⟨_, rfl, (string?_eq_some_iff first).mpr rfl⟩,
            _, rfl, (string?_eq_some_iff second).mpr rfl⟩, rfl⟩
      · refine iff_of_false ?_ ?_ <;> rintro ⟨⟩
  | @object trees members said =>
      obtain ⟨named, read, said⟩ := exists_members?_of_says said
      have whole : error? (.object trees) = some error ↔ ∃ e, error = some e ∧
          ∃ type, member? named "type" = some type ∧ ∃ message,
            member? named "message" = some message ∧ remoteErrorOf? type message = some e := by
        simp only [error?, read, Option.bind_eq_bind, Option.bind_some, Option.bind_eq_some_iff]
        constructor
        · rintro ⟨type, htype, message, hmessage, e, found, same⟩
          exact ⟨e, (Option.some.inj same).symm, type, htype, message, hmessage, found⟩
        · rintro ⟨e, rfl, type, htype, message, hmessage, found⟩
          exact ⟨type, htype, message, hmessage, e, found, rfl⟩
      rw [whole]
      constructor
      · rintro ⟨e, rfl, found⟩
        obtain ⟨type, message⟩ := (remoteError_iff said).mp found
        exact .object e type message
      · rintro (_ | _ | ⟨e, type, message⟩)
        exact ⟨e, rfl, (remoteError_iff said).mpr ⟨type, message⟩⟩
  | bool | number | string => refine iff_of_false ?_ ?_ <;> rintro ⟨⟩

theorem ofMembers?_eq_some_iff {type procedure cbId data error : Option Tree} {e : Envelope} :
    ofMembers? type procedure cbId data error = some e ↔
      (∃ t, type = some t ∧ kind? t = some e.kind) ∧
      (procedure.map string?).getD (some "") = some e.procedure ∧
      (cbId.map callbackId?).getD (some .none) = some e.callbackId ∧
      (data.map data?).getD (some none) = some e.data ∧
      (error.map error?).getD (some none) = some e.error := by
  simp only [ofMembers?, Option.bind_eq_bind, Option.bind_eq_some_iff]
  constructor
  · rintro ⟨t, ht, kind, hkind, procedure, hprocedure, id, hid, data, hdata, error, herror, same⟩
    obtain rfl := Option.some.inj same
    exact ⟨⟨t, ht, hkind⟩, hprocedure, hid, hdata, herror⟩
  · rintro ⟨⟨t, ht, hkind⟩, hprocedure, hid, hdata, herror⟩
    exact ⟨t, ht, _, hkind, _, hprocedure, _, hid, _, hdata, _, herror, rfl⟩

/-- An object is read as the envelope that its members tell. -/
theorem ofTree?_eq_some_iff {trees : List (List StringPart × Tree)}
    {members : List (String × Document)} (h : Tree.SaysMembers trees members) {e : Envelope} :
    ofTree? (.object trees) = some e ↔ Describes members e := by
  obtain ⟨named, read, said⟩ := exists_members?_of_says h
  simp only [ofTree?, read, Option.bind_eq_bind, Option.bind_some, Option.bind_eq_some_iff,
    ofMembers?_eq_some_iff]
  constructor
  · rintro ⟨_, htype, _, hprocedure, _, hid, _, hdata, _, herror, ⟨t, rfl, kind⟩, procedure, id,
      data, error⟩
    exact {
      kind := (member?_required_iff said kind?_eq_some_iff).mp ⟨t, htype, kind⟩
      procedure := (member?_optional_iff said string?_eq_some_iff).mp ⟨_, hprocedure, procedure⟩
      callbackId := (member?_optional_iff said callbackId?_eq_some_iff).mp ⟨_, hid, id⟩
      data := (member?_optional_iff said data?_eq_some_iff).mp ⟨_, hdata, data⟩
      error := (member?_optional_iff said error?_eq_some_iff).mp ⟨_, herror, error⟩ }
  · intro described
    obtain ⟨t, htype, kind⟩ := (member?_required_iff said kind?_eq_some_iff).mpr described.kind
    obtain ⟨_, hprocedure, procedure⟩ :=
      (member?_optional_iff said string?_eq_some_iff).mpr described.procedure
    obtain ⟨_, hid, id⟩ :=
      (member?_optional_iff said callbackId?_eq_some_iff).mpr described.callbackId
    obtain ⟨_, hdata, data⟩ := (member?_optional_iff said data?_eq_some_iff).mpr described.data
    obtain ⟨_, herror, error⟩ := (member?_optional_iff said error?_eq_some_iff).mpr described.error
    exact ⟨_, htype, _, hprocedure, _, hid, _, hdata, _, herror, ⟨t, rfl, kind⟩, procedure, id,
      data, error⟩

/-! ### Members in order -/

section

variable {α : Type} {tells : Document → α → Prop} {missing : α}

/-- What is told by a value of the right form can be given. -/
theorem exists_gives_iff {form : Document → Prop} (agree : ∀ d, (∃ value, tells d value) ↔ form d)
    {values : List Document} :
    (∃ value, Gives tells missing values value) ↔ AtMostOne form values := by
  constructor
  · rintro ⟨_, _ | told⟩
    · exact .inl rfl
    · exact .inr ⟨_, rfl, (agree _).mp ⟨_, told⟩⟩
  · rintro (rfl | ⟨d, rfl, right⟩)
    · exact ⟨missing, .absent⟩
    · obtain ⟨value, told⟩ := (agree d).mpr right
      exact ⟨value, .present told⟩

end

theorem exists_tellsId_iff (d : Document) : (∃ id, TellsId d id) ↔ ∃ n : Numeral, d = .number n ∧
    n.negative = false ∧ n.fraction = none ∧ n.exponent = none ∧
      digitsValue n.whole < 1 <<< 64 := by
  constructor
  · rintro ⟨id, @⟨n, _, unsigned, noFraction, noExponent, value⟩⟩
    exact ⟨n, rfl, unsigned, noFraction, noExponent, value ▸ id.value.toNat_lt⟩
  · rintro ⟨n, rfl, unsigned, noFraction, noExponent, bound⟩
    refine ⟨⟨.ofNat (digitsValue n.whole)⟩, .intro unsigned noFraction noExponent ?_⟩
    rw [UInt64.toNat_ofNat']
    exact (Nat.mod_eq_of_lt bound).symm

theorem exists_tellsData_iff (d : Document) : (∃ data, TellsData d data) ↔
    d.height ≤ 126 ∧ ∀ n ∈ d.numerals, (Number.ofNumeral? n).isSome := by
  rw [← Document.exists_means_iff]
  constructor
  · rintro ⟨_, _ | ⟨-, room, means⟩⟩
    · exact ⟨Nat.zero_le _, _, .null⟩
    · exact ⟨room, _, means⟩
  · rintro ⟨room, value, means⟩
    by_cases null : d = .null
    · exact ⟨none, null ▸ .null⟩
    · exact ⟨some value, .value null room means⟩

theorem exists_tellsError_iff (d : Document) : (∃ error, TellsError d error) ↔ IsError d := by
  constructor
  · rintro ⟨_, _ | e | ⟨e, type, message⟩⟩
    · exact .inl rfl
    · exact .inr (.inl ⟨_, _, rfl⟩)
    · exact .inr (.inr ⟨_, _, _, rfl, type, message⟩)
  · rintro (rfl | ⟨type, message, rfl⟩ | ⟨members, type, message, rfl, htype, hmessage⟩)
    · exact ⟨none, .null⟩
    · exact ⟨some ⟨type, message⟩, .array ⟨type, message⟩⟩
    · exact ⟨some ⟨type, message⟩, .object ⟨type, message⟩ htype hmessage⟩

theorem exists_tellsKind_iff (d : Document) : (∃ kind, TellsKind d kind) ↔
    d = .string "req" ∨ d = .string "res" ∨ d = .object [("req", .null)] ∨
      d = .object [("res", .null)] := by
  constructor
  · rintro ⟨kind, told⟩
    cases told with
    | word =>
        cases kind with
        | request => exact .inl rfl
        | response => exact .inr (.inl rfl)
    | member =>
        cases kind with
        | request => exact .inr (.inr (.inl rfl))
        | response => exact .inr (.inr (.inr rfl))
  · rintro (rfl | rfl | rfl | rfl)
    · exact ⟨_, .word .request⟩
    · exact ⟨_, .word .response⟩
    · exact ⟨_, .member .request⟩
    · exact ⟨_, .member .response⟩

/-- Members tell an envelope when they are in order. -/
theorem exists_describes_iff {members : List (String × Document)} :
    (∃ e, Describes members e) ↔ Acceptable members := by
  have text : ∀ d, (∃ text, TellsText d text) ↔ ∃ text, d = .string text := fun d => Iff.rfl
  constructor
  · rintro ⟨e, kind, procedure, id, data, error⟩
    obtain ⟨d, one, told⟩ := kind
    exact ⟨⟨d, one, (exists_tellsKind_iff d).mp ⟨_, told⟩⟩,
      (exists_gives_iff text).mp ⟨_, procedure⟩, (exists_gives_iff exists_tellsId_iff).mp ⟨_, id⟩,
      (exists_gives_iff exists_tellsData_iff).mp ⟨_, data⟩,
      (exists_gives_iff exists_tellsError_iff).mp ⟨_, error⟩⟩
  · rintro ⟨⟨d, one, right⟩, procedure, id, data, error⟩
    obtain ⟨kind, told⟩ := (exists_tellsKind_iff d).mpr right
    obtain ⟨procedure, hprocedure⟩ := (exists_gives_iff text).mpr procedure
    obtain ⟨callbackId, hid⟩ := (exists_gives_iff exists_tellsId_iff).mpr id
    obtain ⟨data, hdata⟩ := (exists_gives_iff exists_tellsData_iff).mpr data
    obtain ⟨error, herror⟩ := (exists_gives_iff exists_tellsError_iff).mpr error
    exact ⟨{ kind, procedure, callbackId, data, error }, ⟨d, one, told⟩, hprocedure, hid, hdata,
      herror⟩

/-! ### Members alike -/

theorem Rearranged.perm_valuesOf {names : List String} {members others : List (String × Document)}
    (h : Rearranged names members others) {name : String} (known : name ∈ names) :
    (valuesOf name members).Perm (valuesOf name others) := by
  induction h with
  | reordered h => exact (h.filter _).map _
  | @inserted other value unknown earlier later =>
      have different : (other == name) = false := by
        rw [beq_eq_false_iff_ne]
        rintro rfl
        exact unknown known
      simp [valuesOf, List.filter_append, different]
  | symm h ih => exact ih.symm
  | trans h k ih later => exact ih.trans later

/-- A single value is the same in any order. -/
theorem Rearranged.eq_singleton {names : List String} {members others : List (String × Document)}
    (h : Rearranged names members others) {name : String} (known : name ∈ names) {d : Document}
    (one : valuesOf name members = [d]) : valuesOf name others = [d] := by
  have perm := h.perm_valuesOf known
  rw [one] at perm
  exact (List.singleton_perm.mp perm).symm

theorem Gives.of_perm {α : Type} {tells : Document → α → Prop} {missing value : α}
    {values others : List Document} (h : Gives tells missing values value)
    (perm : values.Perm others) : Gives tells missing others value := by
  cases h with
  | absent =>
      obtain rfl := List.nil_perm.mp perm
      exact .absent
  | present told =>
      obtain rfl := List.singleton_perm.mp perm
      exact .present told

/-- When values before and after one give something, that one gives it alone. -/
theorem Gives.replace {α : Type} {tells : Document → α → Prop} {missing value : α}
    {d other : Document} (h : tells d value → tells other value) {earlier later : List Document}
    (told : Gives tells missing (earlier ++ d :: later) value) :
    Gives tells missing (earlier ++ other :: later) value := by
  generalize whole : earlier ++ d :: later = values at told
  cases told with
  | absent => exact absurd whole (by simp)
  | present told =>
      obtain ⟨rfl, rfl, rfl⟩ : earlier = [] ∧ d = _ ∧ later = [] := by
        simpa [List.append_eq_singleton_iff] using whole
      exact .present (h told)

theorem TellsError.rearranged {members others : List (String × Document)}
    (h : Rearranged ["type", "message"] members others) {error : Option RemoteError}
    (told : TellsError (.object members) error) : TellsError (.object others) error := by
  obtain _ | _ | ⟨e, type, message⟩ := told
  exact .object e (h.eq_singleton (by simp) type) (h.eq_singleton (by simp) message)

theorem Alike.symm {members others : List (String × Document)} (h : Alike members others) :
    Alike others members := by
  induction h with
  | rearranged h => exact .rearranged h.symm
  | error h earlier later => exact .error h.symm earlier later
  | trans h k first second => exact .trans second first

theorem valuesOf_append (name : String) (earlier later : List (String × Document)) :
    valuesOf name (earlier ++ later) = valuesOf name earlier ++ valuesOf name later := by
  simp [valuesOf]

theorem valuesOf_cons_self (name : String) (value : Document) (later : List (String × Document)) :
    valuesOf name ((name, value) :: later) = value :: valuesOf name later := by
  simp [valuesOf]

theorem valuesOf_cons_of_ne {name other : String} (h : other ≠ name) (value : Document)
    (later : List (String × Document)) :
    valuesOf name ((other, value) :: later) = valuesOf name later := by
  simp [valuesOf, h]

/-- Members that are alike tell the same envelope. -/
theorem Describes.of_alike {members others : List (String × Document)} {e : Envelope}
    (described : Describes members e) (h : Alike members others) : Describes others e := by
  induction h with
  | rearranged h =>
      obtain ⟨⟨d, one, told⟩, procedure, id, data, error⟩ := described
      exact {
        kind := ⟨d, h.eq_singleton (by simp) one, told⟩
        procedure := procedure.of_perm (h.perm_valuesOf (by simp))
        callbackId := id.of_perm (h.perm_valuesOf (by simp))
        data := data.of_perm (h.perm_valuesOf (by simp))
        error := error.of_perm (h.perm_valuesOf (by simp)) }
  | @error members others h earlier later =>
      have same : ∀ name, "error" ≠ name →
          valuesOf name (earlier ++ ("error", .object others) :: later) =
            valuesOf name (earlier ++ ("error", .object members) :: later) := by
        intro name other
        rw [valuesOf_append, valuesOf_append, valuesOf_cons_of_ne other, valuesOf_cons_of_ne other]
      obtain ⟨kind, procedure, id, data, error⟩ := described
      refine ⟨?_, ?_, ?_, ?_, ?_⟩
      · rwa [same "type" (by decide)]
      · rwa [same "procedure" (by decide)]
      · rwa [same "cb_id" (by decide)]
      · rwa [same "data" (by decide)]
      · rw [valuesOf_append, valuesOf_cons_self] at error ⊢
        exact error.replace (TellsError.rearranged h)
  | trans h k first second => exact second (first described)

/-- An object is read by its known members alone. -/
theorem envelopes_are_read_by_their_known_members {bytes : Bytes}
    {members : List (String × Document)} (spelled : SpellsText bytes (.object members)) :
    ReadByMembers bytes members := by
  have decoded : ∀ {bytes members}, SpellsText bytes (.object members) →
      ∀ e, ofBytes? bytes = some e ↔ Describes members e := by
    intro bytes members spelled e
    obtain ⟨t, read, said⟩ := Tree.exists_tree_of_spells spelled
    cases said with
    | object said => rw [ofBytes?, read, Option.bind_some, ofTree?_eq_some_iff said]
  refine ⟨decoded spelled, ?_, fun {other others} respelled alike => Option.ext fun e => ?_⟩
  · rw [← exists_describes_iff]
    exact exists_congr (decoded spelled)
  · rw [decoded respelled e, decoded spelled e]
    exact ⟨fun h => h.of_alike alike.symm, fun h => h.of_alike alike⟩

/-- White space, a member of another name whose number is too great for any value, and escapes in
the names. -/
theorem envelopes_are_read_by_their_known_members_response :
    SpellsText (ascii "\x7b\"\\ud83d\\uDE00\" : 1e999, \"t\\u0079pe\":\"res\"\x7d") (.object
      [("😀", .number ⟨false, ascii "1", none, some ⟨false, ascii "999"⟩⟩),
        ("type", .string "res")]) ∧
    ReadByMembers (ascii "\x7b\"\\ud83d\\uDE00\" : 1e999, \"t\\u0079pe\":\"res\"\x7d")
      [("😀", .number ⟨false, ascii "1", none, some ⟨false, ascii "999"⟩⟩),
        ("type", .string "res")] := by
  have unit : ∀ {a b c d : UInt8} (w x y z : Nat), SpellsHexDigit a w ∧ SpellsHexDigit b x ∧
      SpellsHexDigit c y ∧ SpellsHexDigit d z → SpellsUnit ['\\'.toUInt8, 'u'.toUInt8, a, b, c, d]
        (((w * 16 + x) * 16 + y) * 16 + z) := fun _ _ _ _ ⟨ha, hb, hc, hd⟩ => .intro ha hb hc hd
  have plain : ∀ c : Char, ' '.toNat ≤ c.toNat ∧ c ≠ '"' ∧ c ≠ '\\' →
      SpellsChar (String.utf8EncodeChar c) c :=
    fun _ ⟨visible, quote, backslash⟩ => .plain visible quote backslash
  have high : SpellsUnit (ascii "\\ud83d") 0xD83D :=
    unit 13 8 3 13 (by unfold SpellsHexDigit; decide)
  have low : SpellsUnit (ascii "\\uDE00") 0xDE00 :=
    unit 13 14 0 0 (by unfold SpellsHexDigit; decide)
  have letter : SpellsUnit (ascii "\\u0079") 0x79 :=
    unit 0 0 7 9 (by unfold SpellsHexDigit; decide)
  have face : SpellsString (ascii "\"\\ud83d\\uDE00\"") "😀" :=
    .intro (.cons (.pair high low (by decide) (by decide)) .nil)
  have type : SpellsString (ascii "\"t\\u0079pe\"") "type" :=
    .intro (.cons (plain 't' (by decide)) (.cons (.unit letter (by decide))
      (.cons (plain 'p' (by decide)) (.cons (plain 'e' (by decide)) .nil))))
  have word : SpellsString (ascii "\"res\"") "res" :=
    .intro (.cons (plain 'r' (by decide)) (.cons (plain 'e' (by decide))
      (.cons (plain 's' (by decide)) .nil)))
  have one : SpellsWhole (ascii "1") := .digits ⟨by decide, List.all_eq_true.mp rfl⟩ (by decide)
  have number : SpellsNumber (ascii "1e999")
      ⟨false, ascii "1", none, some ⟨false, ascii "999"⟩⟩ :=
    .intro false one .none (.some (.inl rfl) .none ⟨by decide, List.all_eq_true.mp rfl⟩)
  have gap : Ws (ascii " ") := List.all_eq_true.mp rfl
  have none : Ws [] := List.forall_mem_nil _
  have first : SpellsMember (ascii "\"\\ud83d\\uDE00\" : 1e999") _ :=
    .intro none face gap (.intro gap (.number number) none)
  have second : SpellsMember (ascii " \"t\\u0079pe\":\"res\"") _ :=
    .intro gap type none (.intro none (.string word) none)
  have spelled : SpellsText
      (ascii "\x7b\"\\ud83d\\uDE00\" : 1e999, \"t\\u0079pe\":\"res\"\x7d") _ :=
    .intro none (.object (.more first (.last second))) none
  exact ⟨spelled, envelopes_are_read_by_their_known_members spelled⟩

end Envelope

end DuplexRpc
