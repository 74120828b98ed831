import DuplexRpc.Proofs.Definition
import DuplexRpc.Proofs.Payload.Outcome
import DuplexRpc.Values.Shape
import Mathlib.Data.List.Forall2

/-!
# Reading checked values

A program reads its values at types of its own, apart from the check that they have passed.
For every builtin type there is a shape whose reader takes exactly the values that the
check lets through, and reads them as what they are. So a program that reads its
parameters at their own types never finds one missing or of another type.
-/

namespace DuplexRpc

/-- The shape at which the values of a builtin type are read. The unsized integer types have 64
bits. -/
def Builtin.shape : Builtin → Shape
  | int | int64 => .int .i64
  | int8 => .int .i8
  | int16 => .int .i16
  | int32 => .int .i32
  | uint | uint64 => .int .u64
  | uint8 => .int .u8
  | uint16 => .int .u16
  | uint32 => .int .u32
  | string => .string
  | bool => .bool

namespace Shape

/-- What is read at a shape is what the value says. -/
def Shows : (shape : Shape) → shape.Carrier → Json → Prop
  | .int _, n, value => ∃ inRange, value = .number (.integer n inRange)
  | .bool, b, value => value = .bool b
  | .string, text, value => value = .string text
  | .option _, none, value => value = .null
  | .option content, some x, value => content.Shows x value
  | .list item, items, value =>
    ∃ values, value = .array values ∧ List.Forall₂ item.Shows items values
  | .any, x, value => value = x

end Shape

/-- The check of a builtin type and the reader of its shape agree on a value that stands under a
name. -/
structure ReadAlike (type : Builtin) (v : Values) (name : String) (value : Json) : Prop where
  accepted : (DataType.builtin type).accepts value ↔ ∃ x, v.get name type.shape = .ok x
  same : ∀ x, v.get name type.shape = .ok x → type.shape.Shows x value

/-- Values can be read one by one at the types of their parameters, and together as a record of
some of them. -/
structure ReadAsDeclared (params : List Param) (v : Values) : Prop where
  get : ∀ p ∈ params, ∃ type x, p.type = .builtin type ∧ v.get p.name type.shape = .ok x
  decode : ∀ fields : List (String × Shape),
    (∀ field ∈ fields, ∃ p ∈ params, ∃ type, p.name = field.1 ∧ p.type = .builtin type ∧
      field.2 = type.shape) → v.checkRecord fields = .ok ()

/-! ### Single values -/

namespace Shape

theorem readInt_eq_ok_iff {type : IntType} {value : Json} {n : Int} :
    readInt type value = .ok n ↔
      type.holds n ∧ ∃ inRange, value = .number (.integer n inRange) := by
  constructor
  · intro read
    unfold readInt at read
    split at read
    next m inRange =>
      split at read
      next held =>
        obtain rfl := Except.ok.inj read
        exact ⟨held, inRange, rfl⟩
      next => cases read
    next => cases read
  · rintro ⟨held, inRange, rfl⟩
    rw [readInt, if_pos held]

/-- Values that are read one after another are each read. -/
theorem forall₂_of_mapM {ε α β : Type} {f : α → Except ε β} {xs : List α} {ys : List β}
    (h : xs.mapM f = .ok ys) : List.Forall₂ (fun y x => f x = .ok y) ys xs := by
  induction xs generalizing ys with
  | nil =>
      obtain rfl := Except.ok.inj h
      exact .nil
  | cons x xs ih =>
      rw [List.mapM_cons] at h
      obtain ⟨y, first, h⟩ := bind_eq_ok.mp h
      obtain ⟨later, rest, h⟩ := bind_eq_ok.mp h
      obtain rfl := Except.ok.inj h
      exact .cons first (ih rest)

/-- Whatever is read at a shape is what the value says. -/
theorem shows_of_read {shape : Shape} {value : Json} {x : shape.Carrier}
    (h : shape.read value = .ok x) : shape.Shows x value := by
  induction shape generalizing value with
  | int type => exact (readInt_eq_ok_iff.mp h).2
  | bool =>
      cases value with
      | bool b =>
          obtain rfl := Except.ok.inj h
          rfl
      | null | number | string | array | object => cases h
  | string =>
      cases value with
      | string text =>
          obtain rfl := Except.ok.inj h
          rfl
      | null | bool | number | array | object => cases h
  | option content ih =>
      by_cases null : value = .null
      · subst null
        obtain rfl := Except.ok.inj h
        rfl
      · have some_read : (content.read value).map some = .ok x := by
          cases value with
          | null => exact absurd rfl null
          | bool | number | string | array | object => exact h
        cases read : content.read value with
        | error e =>
            rw [read] at some_read
            cases some_read
        | ok y =>
            rw [read] at some_read
            obtain rfl := Except.ok.inj some_read
            exact ih read
  | list item ih =>
      cases value with
      | array values => exact ⟨values, rfl, (forall₂_of_mapM h).imp fun _ _ read => ih read⟩
      | null | bool | number | string | object => cases h
  | any =>
      obtain rfl := Except.ok.inj h
      rfl

end Shape

/-! ### Builtin types -/

theorem IntType.holds_iff {type : IntType} {n : Int} :
    type.holds n ↔ if type.signed then -(1 <<< (type.width - 1)) ≤ n ∧ n < 1 <<< (type.width - 1)
      else 0 ≤ n ∧ n < 1 <<< type.width := by
  unfold holds
  split <;> simp only [Bool.and_eq_true, decide_eq_true_eq]

namespace Builtin

/-- A reader of integers takes what lies in the range of the type that it reads. -/
theorem accepts_integer_iff {type : Builtin} {int : IntType} (shape : type.shape = .int int)
    {n : Int} {inRange : -(1 <<< 63) ≤ n ∧ n < 1 <<< 64} :
    type.accepts (.number (.integer n inRange)) ↔ int.holds n := by
  cases type with
  | string | bool => cases shape
  | int | int8 | int16 | int32 | int64 | uint | uint8 | uint16 | uint32 | uint64 =>
      obtain rfl := Shape.int.inj shape
      simp only [accepts, range?, IntType.holds_iff, IntType.signed, IntType.width, if_true,
        if_false, Bool.false_eq_true, Bool.and_eq_true, decide_eq_true_eq]
      exact and_congr_right fun _ => Int.le_sub_one_iff

/-- A value passes the check of a builtin type when it is read at the shape of the type. -/
theorem accepts_iff_read {type : Builtin} {value : Json} :
    (DataType.builtin type).accepts value ↔ ∃ x, type.shape.read value = .ok x := by
  cases shape : type.shape with
  | int int =>
      constructor
      · intro accepted
        cases DataType.accepts_iff_admits.mp accepted with
        | string | bool => cases shape
        | integer _ _ _ =>
            have held := (accepts_integer_iff shape).mp accepted
            exact ⟨_, Shape.readInt_eq_ok_iff.mpr ⟨held, _, rfl⟩⟩
      · rintro ⟨n, read⟩
        obtain ⟨held, inRange, rfl⟩ := Shape.readInt_eq_ok_iff.mp read
        exact (accepts_integer_iff shape).mpr held
  | bool =>
      obtain rfl : type = .bool := by cases type <;> cases shape; rfl
      constructor
      · intro accepted
        cases DataType.accepts_iff_admits.mp accepted with
        | bool b => exact ⟨b, rfl⟩
        | integer range _ _ => cases range
      · rintro ⟨b, read⟩
        obtain rfl : value = .bool b := Shape.shows_of_read read
        rfl
  | string =>
      obtain rfl : type = .string := by cases type <;> cases shape; rfl
      constructor
      · intro accepted
        cases DataType.accepts_iff_admits.mp accepted with
        | string text => exact ⟨text, rfl⟩
        | integer range _ _ => cases range
      · rintro ⟨text, read⟩
        obtain rfl : value = .string text := Shape.shows_of_read read
        rfl
  | option | list | any => cases type <;> cases shape

end Builtin

/-! ### Records -/

namespace Values

/-- Values that are read at the shapes of the fields that they are listed under pass. -/
theorem checkShapes_of_read {fields : List (String × Shape)} {listed : List (String × Json)}
    (h : ∀ entry ∈ listed, ∀ shape, fields.lookup entry.1 = some shape →
      ∃ x, shape.read entry.2 = .ok x) : checkShapes fields listed = .ok () := by
  induction listed with
  | nil => rfl
  | cons entry rest ih =>
      obtain ⟨first, later⟩ := List.forall_mem_cons.mp h
      rw [checkShapes]
      split
      next shape field =>
        obtain ⟨x, read⟩ := first shape field
        rw [read]
        exact ih later
      next => exact ih later

/-- A record is read when each of its fields has a value, and each of the values a field has by
name is read at the shape of the field. -/
theorem checkRecord_of_get {v : Values} {fields : List (String × Shape)}
    (h : ∀ field ∈ fields, ∃ x, v.get field.1 field.2 = .ok x) : v.checkRecord fields = .ok () := by
  have shapes : checkShapes fields v.fields.toList = .ok () := by
    refine checkShapes_of_read fun entry listed shape field => ?_
    obtain ⟨earlier, later, same, -⟩ := List.lookup_eq_some_iff.mp field
    obtain ⟨x, read⟩ := h (entry.1, shape) (by rw [same]; simp)
    have found : v.find? entry.1 = some entry.2 := Table.find?_eq_some_iff.mpr listed
    rw [get, found] at read
    exact ⟨x, read⟩
  have present : fields.find? (fun field => (v.find? field.1).isNone) = none := by
    refine List.find?_eq_none.mpr fun field listed missing => ?_
    obtain ⟨x, read⟩ := h field listed
    rw [get, Option.isNone_iff_eq_none.mp missing] at read
    cases read
  rw [checkRecord, shapes]
  simp only [present]

end Values

theorem readAlike {type : Builtin} {v : Values} {name : String} {value : Json}
    (held : v.find? name = some value) : ReadAlike type v name value := by
  have read : v.get name type.shape = type.shape.read value := by rw [Values.get, held]
  exact ⟨by rw [read]; exact Builtin.accepts_iff_read, fun x h => Shape.shows_of_read (read ▸ h)⟩

theorem readAsDeclared {params : List Param} (wf : Param.WellFormed params) {v : Values}
    (fits : v.Fits params) : ReadAsDeclared params v := by
  have get : ∀ p ∈ params, ∀ type, p.type = .builtin type →
      ∃ x, v.get p.name type.shape = .ok x := by
    intro p hp type builtin
    obtain ⟨value, held, accepted⟩ := fits.typed p hp
    exact (readAlike held).accepted.mp (builtin ▸ accepted)
  refine ⟨fun p hp => ?_, fun fields declared => ?_⟩
  · obtain ⟨type, -, builtin⟩ := wf.builtin p hp
    obtain ⟨x, read⟩ := get p hp type builtin
    exact ⟨type, x, builtin, read⟩
  · refine Values.checkRecord_of_get fun field hf => ?_
    obtain ⟨p, hp, type, name, builtin, shape⟩ := declared field hf
    rw [← name, shape]
    exact get p hp type builtin

/-- The check of a builtin type and the reader of its shape take the same values. So what has
passed the check against the parameters of a procedure is read at the types of the parameters. -/
theorem checked_values_are_read_at_their_types :
    (∀ (type : Builtin) (v : Values) (name : String) (value : Json), v.find? name = some value →
      ReadAlike type v name value) ∧
    ∀ (source : Source) (service : Service), Service.parse source = .ok service →
      ∀ (side : Side) (key : String) (procedure : Procedure),
        (service.procedures side).find? key = some procedure →
          ∀ params, params = procedure.args ∨ params = procedure.rets →
            ∀ (payload : Option Json) (v : Values), conform params payload = .ok v →
              ReadAsDeclared params v := by
  refine ⟨fun _ _ _ _ held => readAlike held, ?_⟩
  intro source service parsed side key procedure found params own payload v passed
  have wf : procedure.WellFormed := (Service.wellFormed_of_parse parsed).procedure found
  have declared : Param.WellFormed params := by
    rcases own with rfl | rfl
    · exact wf.args
    · exact wf.rets
  exact readAsDeclared declared (fits_of_conform declared passed)

/-- A definition of one procedure with an argument of each kind. -/
def gaugeSource : Source :=
  .ofBytes (Text.utf8 "name gauge\nserver oneway set(peak uint, floor int8, unit string)\n")

def gauge : Procedure :=
  { name := "set", side := .server, oneway := true,
    args := [⟨"peak", .builtin .uint⟩, ⟨"floor", .builtin .int8⟩, ⟨"unit", .builtin .string⟩],
    rets := [], line := 2 }

/-- The greatest number there is and the least of its type; the unit is missing. -/
def gaugePayload : Json :=
  .object [("floor", .ofInt (-128)), ("peak", .ofInt 18446744073709551615)]

theorem checked_values_are_read_at_their_types_gauge :
    let service := (Service.named "gauge").addProcedure gauge
    let v := ((Values.empty.insert "peak" (.ofInt 18446744073709551615)).insert "floor"
      (.ofInt (-128))).insert "unit" (.string "")
    Service.parse gaugeSource = .ok service ∧ conform gauge.args (some gaugePayload) = .ok v ∧
      ReadAlike .uint v "peak" (.ofInt 18446744073709551615) ∧ ReadAsDeclared gauge.args v ∧
        v.get "peak" (.int .u64) = .ok (18446744073709551615 : Int) :=
  have parsed : Service.parse gaugeSource = .ok ((Service.named "gauge").addProcedure gauge) :=
    eq_ok_of_toOption (by decide +kernel)
  have passed := eq_ok_of_toOption (by decide +kernel)
  ⟨parsed, passed, checked_values_are_read_at_their_types.1 _ _ _ _ (by decide +kernel),
    checked_values_are_read_at_their_types.2 _ _ parsed .server "set" gauge (by decide +kernel) _
      (.inl rfl) _ _ passed, rfl⟩

end DuplexRpc
