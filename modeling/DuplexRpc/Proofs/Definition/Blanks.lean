import DuplexRpc.Proofs.Definition.LineByLine
import DuplexRpc.Proofs.Definition.Lines

/-!
# Blank lines

Blank lines may be put anywhere behind the first line of a definition. All that they do is to
move the lines behind them: the numbers of lines in what is defined, or in the error, are
increased by the number of blank lines that have been put before the line. It does not matter
how the bytes are cut into chunks, or whether a line can be read as text at all.
-/

namespace DuplexRpc

/-! ### Sources and lines -/

namespace Source

/-- A source hands out bytes in chunks, cut anywhere, and no read of it fails. -/
inductive HandsOut : Source → Bytes → Prop
  | done : HandsOut [] []
  | bytes {rest : Source} {later : Bytes} (chunk : Bytes) (h : HandsOut rest later) :
      HandsOut (.bytes chunk :: rest) (chunk ++ later)
  | interrupt {rest : Source} {later : Bytes} (h : HandsOut rest later) :
      HandsOut (.interrupt :: rest) later

/-- The bytes of lines each of which is ended by a newline. -/
def terminated (lines : List Bytes) : Bytes := lines.flatMap (· ++ [newline])

/-- The bytes of a line of white space. -/
def BlankLine (line : Bytes) : Prop :=
  ∃ text : String, '\n' ∉ text.toList ∧ (∀ c ∈ text.toList, Text.isBlank c) ∧ line = Text.utf8 text

end Source

/-- Lines of a source, each with the blank lines that are put behind it. -/
structure Padding where
  lines : List (Bytes × List Bytes)
  whole : ∀ entry ∈ lines, Source.newline ∉ entry.1
  blank : ∀ entry ∈ lines, ∀ line ∈ entry.2, Source.BlankLine line

namespace Padding

def original (p : Padding) : List Bytes := p.lines.map Prod.fst

def padded (p : Padding) : List Bytes := p.lines.flatMap fun entry => entry.1 :: entry.2

/-- The number of a line after the blank lines have been put in, given its number before. It grows
by the number of blank lines behind the lines before it. -/
def move (p : Padding) (number : Nat) : Nat :=
  number + ((p.lines.take (number - 1)).flatMap Prod.snd).length

end Padding

/-! ### Moving lines -/

def Table.mapValues {α β : Type} (f : α → β) (t : Table α) : Table β where
  entries := t.entries.map fun entry => (entry.1, f entry.2)
  ascending := List.pairwise_map.mpr t.ascending

def Procedure.moved (move : Nat → Nat) (p : Procedure) : Procedure := { p with line := move p.line }

def Service.moved (move : Nat → Nat) (s : Service) : Service :=
  { s with server := s.server.mapValues (·.moved move)
           client := s.client.mapValues (·.moved move) }

def ParseError.moved (move : Nat → Nat) (e : ParseError) : ParseError :=
  { e with line := move e.line }

def ParseError.outcomeMoved (move : Nat → Nat) (outcome : Except ParseError Service) :
    Except ParseError Service :=
  (outcome.map (·.moved move)).mapError (·.moved move)

namespace Table

variable {α β : Type}

@[simp] theorem find?_mapValues (f : α → β) (t : Table α) (key : String) :
    (t.mapValues f).find? key = (t.find? key).map f := by
  obtain ⟨entries, ascending⟩ := t
  change List.lookup key (entries.map _) = (List.lookup key entries).map f
  clear ascending
  induction entries with
  | nil => rfl
  | cons entry rest ih =>
      rw [List.map_cons, lookup_cons_ite, lookup_cons_ite key entry.1 entry.2, ih]
      split <;> rfl

theorem mapValues_insert (f : α → β) (t : Table α) (key : String) (value : α) :
    (t.insert key value).mapValues f = (t.mapValues f).insert key (f value) := by
  refine ext fun other => ?_
  rw [find?_mapValues, find?_insert, find?_insert, find?_mapValues]
  split <;> rfl

end Table

variable {move : Nat → Nat} {s : Service} {number : Nat} {line : List Char}

theorem Procedure.ofLine_moved :
    ofLine line (move number) = (ofLine line number).map (·.moved move) := by
  unfold ofLine
  split
  next => rfl
  next oneway name args rets? _ =>
    by_cases returns : (oneway && rets?.isSome) = true
    · rw [if_pos returns, if_pos returns]
      rfl
    · rw [if_neg returns, if_neg returns]
      cases Param.ofGroup args with
      | error fault => rfl
      | ok args =>
          cases Param.ofGroup (rets?.getD []) with
          | error fault => rfl
          | ok rets =>
              change (if _ then _ else _) = Except.map _ (if _ then _ else _)
              split <;> rfl

namespace Service

theorem procedures_moved (side : Side) :
    (s.moved move).procedures side = (s.procedures side).mapValues (·.moved move) := by
  cases side <;> rfl

theorem addProcedure_moved (p : Procedure) :
    (s.addProcedure p).moved move = (s.moved move).addProcedure (p.moved move) := by
  unfold addProcedure
  cases side : p.side with
  | server => simp only [Procedure.moved, side, moved, Table.mapValues_insert]
  | client => simp only [Procedure.moved, side, moved, Table.mapValues_insert]

/-- A line that stands elsewhere is judged alike. -/
theorem judgeLine_moved : (s.moved move).judgeLine (move number) line =
    (s.judgeLine number line).map (·.moved move) := by
  unfold judgeLine
  split
  next => rfl
  next =>
    rw [Procedure.ofLine_moved]
    cases Procedure.ofLine line number with
    | error fault => rfl
    | ok p =>
        have same : ((s.moved move).procedures p.side).contains p.name =
            (s.procedures p.side).contains p.name := by
          rw [procedures_moved, Table.contains, Table.find?_mapValues, Option.isSome_map]
          rfl
        change (if ((s.moved move).procedures p.side).contains p.name then _ else _) =
          Except.map _ (if _ then _ else _)
        rw [same]
        split
        · rfl
        · exact congrArg Except.ok (addProcedure_moved p).symm
  next =>
    change (DataType.ofLine s line >>= fun type => .ok ((s.moved move).addType type)) = _
    cases DataType.ofLine s line <;> rfl
  next => rfl

/-- Lines of white space define nothing. -/
theorem judgeItems_of_blank {items : List Item}
    (blank : ∀ item ∈ items,
      ∃ text : String, item = .line text ∧ ∀ c ∈ text.toList, Text.isBlank c) :
    s.judgeItems number items = .ok s := by
  induction items generalizing number with
  | nil => rfl
  | cons item rest ih =>
      obtain ⟨⟨text, rfl, first⟩, later⟩ := List.forall_mem_cons.mp blank
      have kind : LineKind.of text.toList = .blank := if_pos (List.all_eq_true.mpr first)
      rw [judgeItems, judgeLine, kind]
      exact ih later

end Service

/-! ### Reading lines -/

namespace Source

/-- However the bytes of a line are cut, the line is taken whole. -/
theorem takeItem_of_handsOut {source : Source} {read before after : Bytes}
    (h : source.HandsOut (before ++ newline :: after)) (absent : newline ∉ before) :
    ∃ rest, source.takeItem read = (some (item (dropReturn (read ++ before))), rest) ∧
      rest.HandsOut after := by
  generalize whole : before ++ newline :: after = bytes at h
  induction h generalizing read before with
  | done => cases before <;> cases whole
  | interrupt h ih => exact ih absent whole
  | @bytes rest later chunk h ih =>
      obtain ⟨left, rfl, tail⟩ | ⟨left, rfl, rfl⟩ := List.append_eq_append_iff.mp whole
      · -- the newline is in a later chunk, or in this one
        cases left with
        | nil =>
            obtain ⟨rest, taken, handsOut⟩ :=
              @ih (read ++ (before ++ [])) [] List.not_mem_nil tail
            refine ⟨rest, ?_, handsOut⟩
            simpa [takeItem, cut_of_notMem absent] using taken
        | cons b left =>
            obtain ⟨rfl, rfl⟩ := List.cons.inj tail
            refine ⟨.bytes left :: rest, ?_, .bytes left h⟩
            rw [takeItem, cut_append absent]
      · have outside : newline ∉ chunk := fun inside => absent (List.mem_append_left _ inside)
        have absent : newline ∉ left := fun inside => absent (List.mem_append_right _ inside)
        obtain ⟨rest, taken, handsOut⟩ := @ih (read ++ chunk) left absent rfl
        refine ⟨rest, ?_, handsOut⟩
        rw [takeItem, cut_of_notMem outside, ← List.append_assoc]
        exact taken

theorem next_of_handsOut_nil {source : Source} (h : source.HandsOut []) :
    ∃ rest, source.next = (none, rest) := by
  generalize nothing : [] = bytes at h
  induction h with
  | done => exact ⟨[], rfl⟩
  | interrupt h ih => exact ih nothing
  | bytes chunk h ih =>
      obtain ⟨rfl, empty⟩ := List.append_eq_nil_iff.mp nothing.symm
      exact ih empty.symm

/-- Whatever is handed out comes as the items of its lines. -/
theorem items_of_handsOut {source : Source} {lines : List Bytes}
    (h : source.HandsOut (terminated lines)) (whole : ∀ line ∈ lines, newline ∉ line) :
    source.items = lines.map fun line => item (dropReturn line) := by
  induction lines generalizing source with
  | nil =>
      obtain ⟨rest, nothing⟩ := next_of_handsOut_nil h
      exact items_of_next_none nothing
  | cons line later ih =>
      obtain ⟨absent, whole⟩ := List.forall_mem_cons.mp whole
      have bytes : terminated (line :: later) = line ++ newline :: terminated later := by
        simp [terminated]
      rw [bytes] at h
      obtain ⟨rest, taken, handsOut⟩ := takeItem_of_handsOut h absent
      rw [items_of_next_some taken, ih handsOut whole, List.map_cons, List.nil_append]

end Source

/-! ### Two definitions -/

def Source.itemsOf (lines : List Bytes) : List Item :=
  lines.map fun line => item (dropReturn line)

theorem Source.itemsOf_cons_append (line : Bytes) (blanks later : List Bytes) :
    itemsOf (line :: blanks ++ later) =
      item (dropReturn line) :: (itemsOf blanks ++ itemsOf later) :=
  congrArg (item (dropReturn line) :: ·) List.map_append

namespace Padding

variable {p : Padding} {earlier later : List (Bytes × List Bytes)} {entry : Bytes × List Bytes}

theorem move_succ (shape : p.lines = earlier ++ entry :: later) :
    p.move (earlier.length + 2) = p.move (earlier.length + 1) + 1 + entry.2.length := by
  have next : p.lines.take (earlier.length + 1) = earlier ++ [entry] := by
    rw [shape, List.take_length_add_append]
    rfl
  have here : p.lines.take earlier.length = earlier := by rw [shape, List.take_left]
  simp only [move, Nat.add_sub_cancel, Nat.reduceSubDiff, next, here, List.flatMap_append,
    List.flatMap_singleton, List.length_append]
  omega

theorem judgeItems_blank (inside : entry ∈ p.lines) (s : Service) (number : Nat) :
    s.judgeItems number (Source.itemsOf entry.2) = .ok s := by
  refine Service.judgeItems_of_blank fun item listed => ?_
  obtain ⟨line, present, rfl⟩ := List.mem_map.mp listed
  obtain ⟨text, _, blank, rfl⟩ := p.blank entry inside line present
  refine ⟨String.ofList (Grammar.dropReturn text.toList), ?_, fun c hc => ?_⟩
  · rw [← Source.item_utf8, ← Source.dropReturn_utf8, ← Text.utf8_ofList, String.ofList_toList]
  · rw [String.toList_ofList] at hc
    unfold Grammar.dropReturn at hc
    split at hc
    · exact blank c (List.dropLast_subset text.toList hc)
    · exact blank c hc

/-- The body of a definition, from any line on. -/
theorem judgeItems_padded (shape : p.lines = earlier ++ later) (s : Service) :
    (s.moved p.move).judgeItems (p.move (earlier.length + 1))
        (Source.itemsOf (later.flatMap fun entry => entry.1 :: entry.2)) =
      ParseError.outcomeMoved p.move
        (s.judgeItems (earlier.length + 1) (Source.itemsOf (later.map Prod.fst))) := by
  induction later generalizing earlier s with
  | nil => rfl
  | cons entry later ih =>
      have inside : entry ∈ p.lines := by simp [shape]
      have original : Source.itemsOf ((entry :: later).map Prod.fst) =
          Source.item (Source.dropReturn entry.1) :: Source.itemsOf (later.map Prod.fst) := rfl
      rw [List.flatMap_cons, Source.itemsOf_cons_append, original]
      cases Source.item (Source.dropReturn entry.1) with
      | failure reason => rfl
      | line text =>
          rw [Service.judgeItems, Service.judgeItems, Service.judgeLine_moved]
          cases s.judgeLine (earlier.length + 1) text.toList with
          | error fault => rfl
          | ok t =>
              have next : p.lines = (earlier ++ [entry]) ++ later := by
                rw [shape, List.append_assoc, List.singleton_append]
              have rest := ih next t
              rw [List.length_append, List.length_singleton, move_succ shape] at rest
              change (t.moved p.move).judgeItems _ _ = _
              rw [Service.judgeItems_append (judgeItems_blank inside _ _), Source.itemsOf,
                List.length_map]
              exact rest

theorem ofItems_padded :
    Service.ofItems (Source.itemsOf p.padded) =
      ParseError.outcomeMoved p.move (Service.ofItems (Source.itemsOf p.original)) := by
  cases shape : p.lines with
  | nil =>
      have first : p.move 1 = 1 := rfl
      rw [padded, original, shape]
      exact congrArg (fun number => Except.error (⟨number, .noLine⟩ : ParseError)) first.symm
  | cons entry later =>
      have inside : entry ∈ p.lines := by simp [shape]
      have original : Source.itemsOf p.original =
          Source.item (Source.dropReturn entry.1) :: Source.itemsOf (later.map Prod.fst) := by
        rw [Padding.original, shape]
        rfl
      rw [padded, original, shape, List.flatMap_cons, Source.itemsOf_cons_append]
      cases Source.item (Source.dropReturn entry.1) with
      | failure reason => rfl
      | line text =>
          cases named : Statement.nameLine? (Text.trimEnd text.toList) with
          | none =>
              simp only [Service.ofItems, named]
              rfl
          | some name =>
              have behind : p.lines = [entry] ++ later := shape
              have at_first : p.lines = [] ++ entry :: later := shape
              have rest := judgeItems_padded behind (.named name)
              have number : p.move 2 = 2 + entry.2.length := move_succ at_first
              rw [List.length_singleton, number] at rest
              simp only [Service.ofItems, named]
              rw [Service.judgeItems_append (judgeItems_blank inside _ _), Source.itemsOf,
                List.length_map]
              exact rest

end Padding

/-- The outcomes for two sources are the same but for the numbers of lines, whether the sources
are parsed at once or read line by line. -/
structure Service.OnlyMoves (move : Nat → Nat) (source padded : Source) : Prop where
  parse : parse padded = ParseError.outcomeMoved move (parse source)
  read : read (.start padded) = ParseError.outcomeMoved move (read (.start source))

/-- Blank lines behind the first line of a definition do no more than move the lines behind
them. -/
theorem Service.blank_lines_only_move_lines (p : Padding) {source padded : Source}
    (original : source.HandsOut (Source.terminated p.original))
    (longer : padded.HandsOut (Source.terminated p.padded)) :
    OnlyMoves p.move source padded := by
  have parsed : parse padded = ParseError.outcomeMoved p.move (parse source) := by
    have lines : ∀ line ∈ p.original, Source.newline ∉ line := by
      intro line listed
      obtain ⟨entry, inside, rfl⟩ := List.mem_map.mp listed
      exact p.whole entry inside
    have blanks : ∀ line ∈ p.padded, Source.newline ∉ line := by
      intro line listed
      obtain ⟨entry, inside, listed⟩ := List.mem_flatMap.mp listed
      obtain rfl | added := List.mem_cons.mp listed
      · exact p.whole entry inside
      · obtain ⟨text, absent, -, rfl⟩ := p.blank entry inside line added
        rw [← String.ofList_toList (s := text), Text.utf8_ofList]
        exact Text.newline_notMem absent
    rw [parse, parse, Source.items_of_handsOut original lines,
      Source.items_of_handsOut longer blanks]
    exact Padding.ofItems_padded
  exact ⟨parsed, by rw [read_start, read_start, parsed]⟩

/-- That a line is blank can be told by testing its characters. -/
theorem Source.blankLine_of_all {text : String}
    (h : text.toList.all fun c => c != '\n' && Text.isBlank c) : BlankLine (Text.utf8 text) := by
  have tested : ∀ c ∈ text.toList, c ≠ '\n' ∧ Text.isBlank c := by simpa using h
  exact ⟨text, fun newline => (tested _ newline).1 rfl, fun c hc => (tested c hc).2, rfl⟩

/-- The lines of a definition, and one that is not UTF-8. -/
def Padding.meter : Padding where
  lines :=
    [(Text.utf8 "name meter", [Text.utf8 "", Text.utf8 " \t"]),
      (Text.utf8 "client read()(n int)\r", [Text.utf8 "\u3000\r"]), ([0xff], [Text.utf8 ""])]
  whole := by decide +kernel
  blank := by
    refine List.forall_mem_cons.mpr ⟨List.forall_mem_cons.mpr ⟨?_, ?_⟩,
      List.forall_mem_cons.mpr ⟨?_, List.forall_mem_singleton.mpr ?_⟩⟩
    · exact Source.blankLine_of_all (by decide +kernel)
    all_goals exact List.forall_mem_singleton.mpr (Source.blankLine_of_all (by decide +kernel))

/-- The definition in pieces, cut within a word and before a newline. -/
def meterSource : Source :=
  [.bytes (Text.utf8 "name meter\ncli"), .interrupt, .bytes (Text.utf8 "ent read()(n int)\r"),
    .bytes [10, 0xff, 10]]

def meterPadded : Source :=
  .ofBytes (Text.utf8 "name meter\n\n \t\nclient read()(n int)\r\n\u3000\r\n" ++ [0xff, 10, 10])

theorem Service.blank_lines_only_move_lines_meter :
    meterSource.HandsOut (Source.terminated Padding.meter.original) ∧
      meterPadded.HandsOut (Source.terminated Padding.meter.padded) ∧
      OnlyMoves Padding.meter.move meterSource meterPadded ∧
      parse meterSource = .error ⟨3, .unreadable "stream did not contain valid UTF-8"⟩ ∧
      parse meterPadded = .error ⟨6, .unreadable "stream did not contain valid UTF-8"⟩ := by
  have original : meterSource.HandsOut (Source.terminated Padding.meter.original) := by
    have bytes : Source.terminated Padding.meter.original =
        Text.utf8 "name meter\ncli" ++
          (Text.utf8 "ent read()(n int)\r" ++ ([10, 0xff, 10] ++ [])) := by
      decide +kernel
    rw [bytes]
    exact .bytes _ (.interrupt (.bytes _ (.bytes _ .done)))
  have longer : meterPadded.HandsOut (Source.terminated Padding.meter.padded) := by
    have bytes : Source.terminated Padding.meter.padded =
        Text.utf8 "name meter\n\n \t\nclient read()(n int)\r\n\u3000\r\n" ++ [0xff, 10, 10] ++
          [] := by
      decide +kernel
    rw [bytes]
    exact .bytes _ .done
  refine ⟨original, longer, blank_lines_only_move_lines _ original longer, ?_, ?_⟩
  · decide +kernel
  · decide +kernel

end DuplexRpc
