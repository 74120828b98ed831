import DuplexRpc.Proofs.Definition.Cursor
import DuplexRpc.Proofs.Definition.Meaning

/-!
# One line after another

A definition is judged by no more items of its source than it takes to find a fault. The
first fault decides, and what follows it does not matter. As long as there is none, every
further line leaves what has been defined as it is.
-/

namespace DuplexRpc

namespace Service

/-! ### More lines -/

/-- Everything that the first service holds is in the second one under the same name. -/
structure Extends (s t : Service) : Prop where
  name : t.name = s.name
  procedures : ∀ {side key p}, (s.procedures side).find? key = some p →
    (t.procedures side).find? key = some p
  types : ∀ {key type}, s.types.find? key = some type → t.types.find? key = some type

variable {s t u : Service} {number : Nat}

theorem Extends.refl (s : Service) : s.Extends s := ⟨rfl, id, id⟩

theorem Extends.trans (h : s.Extends t) (k : t.Extends u) : s.Extends u where
  name := k.name.trans h.name
  procedures found := k.procedures (h.procedures found)
  types found := k.types (h.types found)

theorem extends_addProcedure {p : Procedure}
    (free : (s.procedures p.side).find? p.name = none) : s.Extends (s.addProcedure p) where
  name := by
    rw [addProcedure]
    split <;> rfl
  procedures := by
    intro side key q found
    rw [procedures_addProcedure]
    split
    next own =>
      rw [Table.find?_insert, if_neg, found]
      rintro rfl
      rw [own, free] at found
      cases found
    next => exact found
  types := by
    intro key type found
    rw [addProcedure]
    split <;> exact found

theorem extends_addType {type : DataType} (free : s.types.find? type.name = none) :
    s.Extends (s.addType type) where
  name := rfl
  procedures := by
    intro side key p found
    rwa [procedures_addType]
  types := by
    intro key other found
    rw [addType, Table.find?_insert, if_neg, found]
    rintro rfl
    rw [free] at found
    cases found

theorem name_of_ofExpr {name : String} {expr : Statement.TypeExpr} {type : DataType}
    (h : DataType.ofExpr s name expr = .ok type) : type.name = name := by
  cases expr with
  | simple target =>
      obtain ⟨_, _, rest⟩ := bind_eq_ok.mp h
      obtain rfl := Except.ok.inj rest
      rfl
  | slice element =>
      obtain ⟨_, _, rest⟩ := bind_eq_ok.mp h
      obtain rfl := Except.ok.inj rest
      rfl
  | map key value =>
      obtain ⟨_, _, rest⟩ := bind_eq_ok.mp h
      obtain ⟨_, _, rest⟩ := bind_eq_ok.mp rest
      obtain rfl := Except.ok.inj rest
      rfl
  | struct => cases h

/-- A line that is accepted changes no entry. -/
theorem extends_of_judgeLine {line : List Char} (h : s.judgeLine number line = .ok t) :
    s.Extends t := by
  unfold judgeLine at h
  split at h
  next =>
    obtain rfl := Except.ok.inj h
    exact .refl s
  next =>
    obtain ⟨p, _, h⟩ := bind_eq_ok.mp h
    obtain ⟨free, h⟩ := guard_eq_ok.mp h
    obtain rfl := Except.ok.inj h
    exact extends_addProcedure (by simpa [Table.contains] using free)
  next =>
    obtain ⟨type, read, h⟩ := bind_eq_ok.mp h
    obtain rfl := Except.ok.inj h
    obtain ⟨name, expr, _, _, free, means⟩ := DataType.ofLine_eq_ok_iff.mp read
    exact extends_addType (by rwa [name_of_ofExpr means])
  next => cases h

theorem extends_of_judgeItems {items : List Item} (h : s.judgeItems number items = .ok t) :
    s.Extends t := by
  induction items generalizing s number with
  | nil =>
      obtain rfl := Except.ok.inj h
      exact .refl s
  | cons item more ih =>
      cases item with
      | failure reason => cases h
      | line text =>
          unfold judgeItems at h
          split at h
          next judged => exact (extends_of_judgeLine judged).trans (ih h)
          next => cases h

/-- Lines behind accepted ones are judged on top of what those have defined. -/
theorem judgeItems_append {items : List Item} (h : s.judgeItems number items = .ok t)
    (later : List Item) :
    s.judgeItems number (items ++ later) = t.judgeItems (number + items.length) later := by
  induction items generalizing s number with
  | nil =>
      obtain rfl := Except.ok.inj h
      rfl
  | cons item more ih =>
      cases item with
      | failure reason => cases h
      | line text =>
          unfold judgeItems at h
          split at h
          next next_service judged =>
            rw [List.cons_append, judgeItems, judged]
            simp only
            rw [ih h, List.length_cons, Nat.add_right_comm, Nat.add_assoc]
          next => cases h

/-! ### The first fault -/

/-- A fault of the body is that of one item, and whatever stands behind this item does not
matter. -/
theorem judgeItems_of_error {items : List Item} {e : ParseError}
    (h : s.judgeItems number items = .error e) :
    ∃ i, i < items.length ∧ e.line = number + i ∧
      ∀ later, s.judgeItems number (items.take (i + 1) ++ later) = .error e := by
  induction items generalizing s number with
  | nil => cases h
  | cons item more ih =>
      cases item with
      | failure reason =>
          obtain rfl := Except.error.inj h
          exact ⟨0, Nat.succ_pos _, rfl, fun later => rfl⟩
      | line text =>
          unfold judgeItems at h
          split at h
          next judged =>
            obtain ⟨i, inside, at_line, decided⟩ := ih h
            refine ⟨i + 1, Nat.succ_lt_succ inside, by omega, fun later => ?_⟩
            rw [List.take_succ_cons, List.cons_append, judgeItems, judged]
            exact decided later
          next fault judged =>
            obtain rfl := Except.error.inj h
            refine ⟨0, Nat.succ_pos _, rfl, fun later => ?_⟩
            rw [List.take_succ_cons, List.cons_append, judgeItems, judged]

/-- The first fault is that of one item, and whatever stands behind this item does not matter. -/
theorem ofItems_of_error {items : List Item} {e : ParseError} (h : ofItems items = .error e) :
    items = [] ∧ e = ⟨1, .noLine⟩ ∨
      ∃ i, i < items.length ∧ e.line = i + 1 ∧
        ∀ later, ofItems (items.take (i + 1) ++ later) = .error e := by
  cases items with
  | nil => exact .inl ⟨rfl, (Except.error.inj h).symm⟩
  | cons item body =>
      refine .inr ?_
      cases item with
      | failure reason =>
          obtain rfl := Except.error.inj h
          exact ⟨0, Nat.succ_pos _, rfl, fun later => rfl⟩
      | line text =>
          unfold ofItems at h
          simp only at h
          split at h
          next name read =>
            obtain ⟨i, inside, at_line, decided⟩ := judgeItems_of_error h
            refine ⟨i + 1, Nat.succ_lt_succ inside, by omega, fun later => ?_⟩
            rw [List.take_succ_cons, List.cons_append, ofItems, read]
            exact decided later
          next read =>
            obtain rfl := Except.error.inj h
            refine ⟨0, Nat.succ_pos _, rfl, fun later => ?_⟩
            rw [List.take_succ_cons, List.cons_append, ofItems, read]

/-- What stands behind lines that are a definition of their own is judged on top of it. -/
theorem ofItems_append {items : List Item} (h : ofItems items = .ok s) (later : List Item) :
    ofItems (items ++ later) = s.judgeItems (items.length + 1) later := by
  cases items with
  | nil => cases h
  | cons item body =>
      cases item with
      | failure reason => cases h
      | line text =>
          unfold ofItems at h
          simp only at h
          split at h
          next name read =>
            rw [List.cons_append, ofItems, read]
            simp only
            rw [judgeItems_append h, List.length_cons, Nat.add_right_comm, Nat.add_comm]
          next => cases h

end Service

/-! ### Faults of a line -/

/-- Whether a fault lies in what a line says, and not in that there is none. -/
def Fault.InText (f : Fault) : Prop := f.kind ≠ .unexpectedEof ∧ f.kind ≠ .reader

theorem Param.inText_of_judge {position : Nat} {earlier : List Param} {text : List Char} {f : Fault}
    (h : judge position earlier text = .error f) : f.InText := by
  unfold judge at h
  split at h
  next =>
    obtain rfl := Except.error.inj h
    exact ⟨nofun, nofun⟩
  next =>
    split at h
    next =>
      obtain rfl := Except.error.inj h
      exact ⟨nofun, nofun⟩
    next =>
      split at h
      next =>
        obtain rfl := Except.error.inj h
        exact ⟨nofun, nofun⟩
      next => cases h

theorem Param.inText_of_judgeAll {position : Nat} {earlier : List Param} {texts : List (List Char)}
    {f : Fault} (h : judgeAll position earlier texts = .error f) : f.InText := by
  induction texts generalizing position earlier with
  | nil => cases h
  | cons text more ih =>
      unfold judgeAll at h
      obtain here | ⟨_, _, later⟩ := bind_eq_error.mp h
      · exact inText_of_judge here
      · exact ih later

theorem Param.inText_of_ofGroup {group : List Char} {f : Fault} (h : ofGroup group = .error f) :
    f.InText := by
  unfold ofGroup at h
  split at h
  next => cases h
  next => exact inText_of_judgeAll h

theorem Procedure.inText_of_ofLine {line : List Char} {number : Nat} {f : Fault}
    (h : ofLine line number = .error f) : f.InText := by
  unfold ofLine at h
  split at h
  next =>
    obtain rfl := Except.error.inj h
    exact ⟨nofun, nofun⟩
  next =>
    obtain ⟨_, rfl⟩ | ⟨_, h⟩ := guard_eq_error.mp h
    · exact ⟨nofun, nofun⟩
    obtain args | ⟨_, _, h⟩ := bind_eq_error.mp h
    · exact Param.inText_of_ofGroup args
    obtain rets | ⟨_, _, h⟩ := bind_eq_error.mp h
    · exact Param.inText_of_ofGroup rets
    obtain ⟨_, rfl⟩ | ⟨_, h⟩ := guard_eq_error.mp h
    · exact ⟨nofun, nofun⟩
    · cases h

theorem DataType.inText_of_resolved {s : Service} {role : TypeRole} {name : String} {f : Fault}
    (h : ofExpr.resolved s role name = .error f) : f.InText := by
  unfold ofExpr.resolved at h
  split at h
  next => cases h
  next =>
    obtain rfl := Except.error.inj h
    exact ⟨nofun, nofun⟩

theorem DataType.inText_of_ofExpr {s : Service} {name : String} {expr : Statement.TypeExpr}
    {f : Fault} (h : ofExpr s name expr = .error f) : f.InText := by
  cases expr with
  | simple target =>
      obtain unknown | ⟨_, _, known⟩ := bind_eq_error.mp h
      · exact inText_of_resolved unknown
      · cases known
  | slice element =>
      obtain unknown | ⟨_, _, known⟩ := bind_eq_error.mp h
      · exact inText_of_resolved unknown
      · cases known
  | map key value =>
      obtain unknown | ⟨_, _, h⟩ := bind_eq_error.mp h
      · exact inText_of_resolved unknown
      obtain unknown | ⟨_, _, known⟩ := bind_eq_error.mp h
      · exact inText_of_resolved unknown
      · cases known
  | struct =>
      obtain rfl := Except.error.inj h
      exact ⟨nofun, nofun⟩

theorem DataType.inText_of_ofLine {s : Service} {line : List Char} {f : Fault}
    (h : ofLine s line = .error f) : f.InText := by
  unfold ofLine at h
  split at h
  next =>
    obtain rfl := Except.error.inj h
    exact ⟨nofun, nofun⟩
  next =>
    split at h
    next =>
      obtain rfl := Except.error.inj h
      exact ⟨nofun, nofun⟩
    next =>
      split at h
      next =>
        obtain rfl := Except.error.inj h
        exact ⟨nofun, nofun⟩
      next => exact inText_of_ofExpr h

namespace Service

variable {s t : Service} {number : Nat}

theorem inText_of_judgeLine {line : List Char} {f : Fault}
    (h : s.judgeLine number line = .error f) : f.InText := by
  unfold judgeLine at h
  split at h
  next => cases h
  next =>
    obtain malformed | ⟨_, _, h⟩ := bind_eq_error.mp h
    · exact Procedure.inText_of_ofLine malformed
    obtain ⟨_, rfl⟩ | ⟨_, h⟩ := guard_eq_error.mp h
    · exact ⟨nofun, nofun⟩
    · cases h
  next =>
    obtain refused | ⟨_, _, h⟩ := bind_eq_error.mp h
    · exact DataType.inText_of_ofLine refused
    · cases h
  next =>
    obtain rfl := Except.error.inj h
    exact ⟨nofun, nofun⟩

/-- A body is refused for what one of its lines says, or for a failure that stands in the place
of a line. -/
theorem inText_of_judgeItems {items : List Item} {e : ParseError}
    (h : s.judgeItems number items = .error e) :
    e.fault.InText ∨ ∃ i reason, items[i]? = some (.failure reason) ∧
      e = ⟨number + i, .unreadable reason⟩ := by
  induction items generalizing s number with
  | nil => cases h
  | cons item more ih =>
      cases item with
      | failure reason =>
          obtain rfl := Except.error.inj h
          exact .inr ⟨0, reason, rfl, rfl⟩
      | line text =>
          unfold judgeItems at h
          split at h
          next judged =>
            obtain inText | ⟨i, reason, found, rfl⟩ := ih h
            · exact .inl inText
            · refine .inr ⟨i + 1, reason, found, ?_⟩
              rw [Nat.add_assoc, Nat.add_comm 1 i]
          next fault judged =>
            obtain rfl := Except.error.inj h
            exact .inl (inText_of_judgeLine judged)

/-- A definition is refused because there is none, for what one of its lines says, or for a
failure that stands in the place of a line. -/
theorem inText_of_ofItems {items : List Item} {e : ParseError} (h : ofItems items = .error e) :
    (items = [] ∧ e = ⟨1, .noLine⟩) ∨ e.fault.InText ∨
      ∃ i reason, items[i]? = some (.failure reason) ∧ e = ⟨i + 1, .unreadable reason⟩ := by
  cases items with
  | nil => exact .inl ⟨rfl, (Except.error.inj h).symm⟩
  | cons item body =>
      refine .inr ?_
      cases item with
      | failure reason =>
          obtain rfl := Except.error.inj h
          exact .inr ⟨0, reason, rfl, rfl⟩
      | line text =>
          unfold ofItems at h
          simp only at h
          split at h
          next name read =>
            obtain inText | ⟨i, reason, found, rfl⟩ := inText_of_judgeItems h
            · exact .inl inText
            · exact .inr ⟨i + 1, reason, found, by rw [Nat.add_comm 2 i]⟩
          next read =>
            obtain rfl := Except.error.inj h
            exact .inl ⟨nofun, nofun⟩

/-- An end that was not seen coming is never met while the body is read. -/
theorem kind_of_readBody {c : Cursor} {e : ParseError} (h : s.readBody c = .error e) :
    e.fault.kind ≠ .unexpectedEof := by
  rw [readBody_eq] at h
  obtain inText | ⟨i, reason, _, rfl⟩ := inText_of_judgeItems h
  · exact inText.1
  · exact nofun

/-! ### Decided line by line -/

/-- Whether items are a definition, or the beginning of one that goes no further than the line
that is to name the service. -/
def Acceptable (items : List Item) : Prop := items = [] ∨ ∃ s, ofItems items = .ok s

/-- A failure is reported when nothing before it was refused. -/
theorem ofItems_of_failure {before : List Item} (acceptable : Acceptable before) (reason : String)
    (after : List Item) :
    ofItems (before ++ .failure reason :: after) =
      .error ⟨before.length + 1, .unreadable reason⟩ := by
  obtain rfl | ⟨s, accepted⟩ := acceptable
  · rfl
  · rw [ofItems_append accepted, judgeItems]

/-- What is refused behind some items is not refused for one of them. -/
theorem acceptable_of_line {before later : List Item} {e : ParseError}
    (h : ofItems (before ++ later) = .error e) (behind : before.length < e.line) :
    Acceptable before := by
  cases judged : ofItems before with
  | ok s => exact .inr ⟨s, judged⟩
  | error d =>
      obtain ⟨empty, _⟩ | ⟨i, inside, at_line, decided⟩ := ofItems_of_error judged
      · exact .inl empty
      · have same := decided (before.drop (i + 1) ++ later)
        rw [← List.append_assoc, List.take_append_drop, h] at same
        obtain rfl := Except.error.inj same
        omega

/-- Lines that are a definition of their own hold no failure. -/
theorem lines_of_ofItems_ok {items : List Item} (h : ofItems items = .ok s) :
    ∀ item ∈ items, ∃ text, item = .line text := by
  intro item inside
  cases item with
  | line text => exact ⟨text, rfl⟩
  | failure reason =>
      obtain ⟨before, after, rfl⟩ := List.append_of_mem inside
      cases judged : ofItems before with
      | ok t =>
          rw [ofItems_append judged, judgeItems] at h
          cases h
      | error d =>
          obtain ⟨rfl, _⟩ | ⟨i, _, _, decided⟩ := ofItems_of_error judged
          · cases h
          · have refused := decided (before.drop (i + 1) ++ .failure reason :: after)
            rw [← List.append_assoc, List.take_append_drop, h] at refused
            cases refused

theorem parse_of_take {source : Source} {e : ParseError} (h : parse source = .error e)
    (present : e.fault.kind ≠ .unexpectedEof) :
    1 ≤ e.line ∧ e.line ≤ source.items.length ∧
      ∀ other : Source, other.items.take e.line = source.items.take e.line →
        parse other = .error e := by
  obtain ⟨_, rfl⟩ | ⟨i, inside, at_line, decided⟩ := ofItems_of_error h
  · exact absurd rfl present
  · refine ⟨by omega, by omega, fun other same => ?_⟩
    have rest := decided (other.items.drop (i + 1))
    rw [← at_line, ← same, List.take_append_drop] at rest
    exact rest

theorem parse_of_prefix {source other : Source} (h : parse source = .ok s)
    (longer : source.items <+: other.items) :
    (∃ t, parse other = .ok t ∧ s.Extends t) ∨
      ∃ e, parse other = .error e ∧ source.items.length < e.line := by
  obtain ⟨later, longer⟩ := longer
  have judged := ofItems_append h later
  rw [longer] at judged
  rw [parse, judged]
  cases outcome : s.judgeItems (source.items.length + 1) later with
  | ok t => exact .inl ⟨t, rfl, extends_of_judgeItems outcome⟩
  | error e =>
      obtain ⟨i, _, at_line, _⟩ := judgeItems_of_error outcome
      exact .inr ⟨e, rfl, by omega⟩

theorem failure_of_reader {source : Source} {e : ParseError} (h : parse source = .error e)
    (kind : e.fault.kind = .reader) :
    ∃ before reason after, source.items = before ++ .failure reason :: after ∧
      e = ⟨before.length + 1, .unreadable reason⟩ := by
  obtain ⟨_, rfl⟩ | inText | ⟨i, reason, found, rfl⟩ := inText_of_ofItems h
  · cases kind
  · exact absurd kind inText.2
  · obtain ⟨inside, here⟩ := List.getElem?_eq_some_iff.mp found
    refine ⟨source.items.take i, reason, source.items.drop (i + 1), ?_, ?_⟩
    · rw [← here, ← List.drop_eq_getElem_cons inside, List.take_append_drop]
    · rw [List.length_take_of_le (Nat.le_of_lt inside)]

theorem items_of_eof {source : Source} {e : ParseError} (h : parse source = .error e)
    (kind : e.fault.kind = .unexpectedEof) : source.items = [] ∧ e = ⟨1, .noLine⟩ := by
  obtain found | inText | ⟨i, reason, _, rfl⟩ := inText_of_ofItems h
  · exact found
  · exact absurd kind inText.1
  · cases kind

/-- How far the outcome of parsing a source depends on the items that the source delivers. -/
structure DecidedLineByLine (source : Source) : Prop where
  /-- A cursor delivers the items of its source, and the parser reads from the cursor. -/
  delivered : (Cursor.start source).Delivers source.items
  read : read (.start source) = parse source
  /-- The first fault decides, whatever follows. -/
  refused : ∀ {e}, parse source = .error e → e.fault.kind ≠ .unexpectedEof →
    1 ≤ e.line ∧ e.line ≤ source.items.length ∧
      ∀ other : Source, other.items.take e.line = source.items.take e.line →
        parse other = .error e
  /-- What follows a definition adds to it or is refused itself. -/
  accepted : ∀ {s}, parse source = .ok s →
    (∀ item ∈ source.items, ∃ text, item = .line text) ∧
      ∀ other : Source, source.items <+: other.items →
        (∃ t, parse other = .ok t ∧ s.Extends t) ∨
          ∃ e, parse other = .error e ∧ source.items.length < e.line
  /-- A failure is reported exactly when nothing before it was refused. -/
  unreadable : ∀ {before reason after}, source.items = before ++ .failure reason :: after →
    ((∃ e, parse source = .error e ∧ e.fault.kind = .reader ∧ e.line = before.length + 1) ↔
      Acceptable before) ∧
    (Acceptable before → parse source = .error ⟨before.length + 1, .unreadable reason⟩)
  /-- Nothing else is reported as unreadable. -/
  reader : ∀ {e}, parse source = .error e → e.fault.kind = .reader →
    ∃ before reason after, source.items = before ++ .failure reason :: after ∧
      e = ⟨before.length + 1, .unreadable reason⟩
  /-- A missing line is reported only of a source that delivers nothing. -/
  eof : ∀ {e}, parse source = .error e →
    (e.fault.kind = .unexpectedEof ↔ source.items = []) ∧
      (e.fault.kind = .unexpectedEof → e = ⟨1, .noLine⟩)
  /-- In the body a line that has been seen is there to be taken. -/
  seen : ∀ {c looked : Cursor} {text}, c.peek = (.ok (some text), looked) →
    ∃ taken, looked.line = (.ok (some text), taken)
  body : ∀ {s : Service} {c e}, s.readBody c = .error e → e.fault.kind ≠ .unexpectedEof

/-- Parsing is decided line by line, and the first fault decides. -/
theorem parsing_is_decided_line_by_line (source : Source) : DecidedLineByLine source where
  delivered := Cursor.delivers_items (.start source)
  read := read_start source
  refused := parse_of_take
  accepted accepted := ⟨lines_of_ofItems_ok accepted, fun _ => parse_of_prefix accepted⟩
  unreadable := by
    intro before reason after items
    have reported : Acceptable before →
        parse source = .error ⟨before.length + 1, .unreadable reason⟩ := by
      intro acceptable
      rw [parse, items, ofItems_of_failure acceptable]
    refine ⟨⟨?_, fun acceptable => ⟨_, reported acceptable, rfl, rfl⟩⟩, reported⟩
    rintro ⟨e, refused, _, at_line⟩
    rw [parse, items] at refused
    exact acceptable_of_line refused (by omega)
  reader := failure_of_reader
  eof := by
    intro e refused
    have missing := items_of_eof refused
    refine ⟨⟨fun kind => (missing kind).1, fun empty => ?_⟩, fun kind => (missing kind).2⟩
    rw [parse, empty] at refused
    obtain rfl := Except.error.inj refused
    rfl
  seen := by
    intro c looked text seen
    exact ⟨_, (Cursor.line_of_peek seen).1⟩
  body := kind_of_readBody

end Service

end DuplexRpc
