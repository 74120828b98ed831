import DuplexRpc.Proofs.Envelope

/-!
# Envelopes that have been read

A reader accepts envelopes in many spellings, but what it makes of them is always data in
order: objects have their members sorted, nothing is nested too deeply, and null counts as
no data. So an envelope without floating point numbers that has been read can be written
and read again, and is then still the same envelope.
-/

namespace DuplexRpc

namespace Table

/-- Entering a listing into a table adds nothing to it. -/
theorem mem_of_mem_ofList {α : Type} {entry : String × α} {l : List (String × α)}
    (h : entry ∈ (ofList l).entries) : entry ∈ l := by
  have added : ∀ t : Table α,
      entry ∈ (l.foldl (fun t entry => t.insert entry.1 entry.2) t).entries →
        entry ∈ t.entries ∨ entry ∈ l := by
    clear h
    induction l with
    | nil => exact fun _ h => .inl h
    | cons head rest ih =>
        intro t h
        rcases ih _ h with inserted | later
        · rcases mem_insertSorted inserted with rfl | earlier
          · exact .inr List.mem_cons_self
          · exact .inl earlier
        · exact .inr (List.mem_cons_of_mem _ later)
  exact (added .empty h).resolve_left List.not_mem_nil

end Table

namespace Json

theorem canonicalMembers_iff {members : List (String × Json)} :
    CanonicalMembers members ↔ ∀ member ∈ members, member.2.Canonical := by
  induction members with
  | nil => simp [CanonicalMembers]
  | cons member rest ih => simp [CanonicalMembers, ih]

theorem heightOfMembers_le_iff {members : List (String × Json)} {depth : Nat} :
    heightOfMembers members ≤ depth ↔ ∀ member ∈ members, member.2.height ≤ depth := by
  induction members with
  | nil => simp [heightOfMembers]
  | cons member rest ih => rw [heightOfMembers, Nat.max_le, ih, List.forall_mem_cons]

/-- Whether a value can have been read where there was room for `depth` nested arrays and
objects. -/
structure Readable (depth : Nat) (value : Json) : Prop where
  canonical : value.Canonical
  height : value.height ≤ depth

/-- A table of readable values is one readable object. -/
theorem Readable.ofTable {depth : Nat} {entries : List (String × Json)}
    (h : ∀ entry ∈ entries, Readable depth entry.2) :
    Readable (depth + 1) (ofTable (.ofList entries)) := by
  have listed : ∀ entry ∈ (Table.ofList entries).entries, Readable depth entry.2 :=
    fun entry hmem => h entry (Table.mem_of_mem_ofList hmem)
  constructor
  · exact ⟨(Table.ofList entries).ascending,
      canonicalMembers_iff.mpr fun entry hmem => (listed entry hmem).canonical⟩
  · exact Nat.succ_le_succ
      (heightOfMembers_le_iff.mpr fun entry hmem => (listed entry hmem).height)

mutual

/-- What a tree spells is readable, however the tree is spelled. -/
theorem readable_of_ofTree? : ∀ {t : Tree} {depth : Nat} {value : Json},
    ofTree? depth t = some value → Readable depth value
  | .null, _, _, rfl => ⟨trivial, Nat.zero_le _⟩
  | .bool _, _, _, rfl => ⟨trivial, Nat.zero_le _⟩
  | .number _, _, _, h => by
      rw [ofTree?] at h
      obtain ⟨n, _, rfl⟩ := Option.map_eq_some_iff.mp h
      exact ⟨trivial, Nat.zero_le _⟩
  | .string _, _, _, h => by
      rw [ofTree?] at h
      obtain ⟨s, _, rfl⟩ := Option.map_eq_some_iff.mp h
      exact ⟨trivial, Nat.zero_le _⟩
  | .array _, 0, _, h => by
      rw [ofTree?] at h
      cases h
  | .array items, depth + 1, _, h => by
      rw [ofTree?] at h
      obtain ⟨values, hread, rfl⟩ := Option.map_eq_some_iff.mp h
      obtain ⟨canonical, height⟩ := readable_of_ofItems? hread
      exact ⟨canonical, Nat.succ_le_succ height⟩
  | .object _, 0, _, h => by
      rw [ofTree?] at h
      cases h
  | .object members, depth + 1, _, h => by
      rw [ofTree?] at h
      obtain ⟨entries, hread, rfl⟩ := Option.map_eq_some_iff.mp h
      exact .ofTable (readable_of_ofMembers? hread)

theorem readable_of_ofItems? : ∀ {items : List Tree} {depth : Nat} {values : List Json},
    ofItems? depth items = some values →
      CanonicalItems values ∧ heightOfItems values ≤ depth
  | [], _, _, rfl => ⟨trivial, Nat.zero_le _⟩
  | item :: rest, depth, _, h => by
      rw [ofItems?] at h
      split at h
      next value hvalue =>
        obtain ⟨values, hread, rfl⟩ := Option.map_eq_some_iff.mp h
        obtain ⟨canonical, height⟩ := readable_of_ofTree? hvalue
        obtain ⟨canonicals, heights⟩ := readable_of_ofItems? hread
        exact ⟨⟨canonical, canonicals⟩, Nat.max_le.mpr ⟨height, heights⟩⟩
      next => cases h

theorem readable_of_ofMembers? : ∀ {members : List (List StringPart × Tree)} {depth : Nat}
    {entries : List (String × Json)}, ofMembers? depth members = some entries →
      ∀ entry ∈ entries, Readable depth entry.2
  | [], _, _, rfl => nofun
  | (name, member) :: rest, depth, _, h => by
      rw [ofMembers?] at h
      split at h
      next text value _ hvalue =>
        obtain ⟨entries, hread, rfl⟩ := Option.map_eq_some_iff.mp h
        intro entry hmem
        rcases List.mem_cons.mp hmem with rfl | hmem
        · exact readable_of_ofTree? hvalue
        · exact readable_of_ofMembers? hread entry hmem
      next => cases h

end

/-- Only the word null spells the null value. -/
theorem eq_null_of_ofTree? {t : Tree} {depth : Nat} (h : ofTree? depth t = some .null) :
    t = .null := by
  cases t with
  | null => rfl
  | bool value => cases h
  | number value | string value => simp [ofTree?] at h
  | array items | object members => cases depth <;> simp [ofTree?, ofTable] at h

end Json

namespace Envelope

open Json

/-- Data that has been read can be carried, unless there are floating point numbers in it. -/
theorem portable_of_data? {t : Tree} {data : Json} (h : data? t = some (some data))
    (exact : data.Exact) : data.Portable := by
  unfold data? at h
  split at h
  next => cases h
  next notNull =>
    obtain ⟨value, hread, hvalue⟩ := Option.map_eq_some_iff.mp h
    obtain rfl := Option.some.inj hvalue
    obtain ⟨canonical, height⟩ := readable_of_ofTree? hread
    refine ⟨?_, canonical, exact, height⟩
    rintro rfl
    exact notNull (eq_null_of_ofTree? hread)

/-- The data of an envelope was read from its member, if it has any. -/
theorem data_of_ofMembers? {type procedure cbId data error : Option Tree} {e : Envelope}
    (h : ofMembers? type procedure cbId data error = some e) {value : Json}
    (hd : e.data = some value) : ∃ t, data? t = some (some value) := by
  simp only [ofMembers?, Option.bind_eq_bind, Option.bind_eq_some_iff] at h
  obtain ⟨_, _, _, _, _, _, _, _, found, hfound, _, _, he⟩ := h
  obtain rfl := Option.some.inj he
  obtain rfl : found = some value := hd
  cases data with
  | none => cases hfound
  | some t => exact ⟨t, hfound⟩

theorem data_of_ofTree? {t : Tree} {e : Envelope} (h : ofTree? t = some e) {value : Json}
    (hd : e.data = some value) : ∃ member, data? member = some (some value) := by
  unfold ofTree? at h
  split at h
  next =>
    simp only [Option.bind_eq_bind, Option.bind_eq_some_iff] at h
    obtain ⟨_, _, _, _, _, _, _, _, _, _, _, _, h⟩ := h
    exact data_of_ofMembers? h hd
  next =>
    split at h
    next => exact data_of_ofMembers? h hd
    next => cases h
  next => cases h

/-- Whether no floating point number occurs in the data of an envelope. -/
def Exact (e : Envelope) : Prop := ∀ data ∈ e.data, data.Exact

/-- An envelope that has been read can be carried, unless there are floating point numbers in
it. -/
theorem portable_of_ofBytes? {bytes : Bytes} {e : Envelope} (h : ofBytes? bytes = some e)
    (exact : e.Exact) : e.Portable := by
  obtain ⟨t, _, hread⟩ := Option.bind_eq_some_iff.mp h
  intro data hdata
  obtain ⟨member, hmember⟩ := data_of_ofTree? hread hdata
  exact portable_of_data? hmember (exact data hdata)

/-- Reading undoes writing for every envelope whose data can be carried, and every envelope without
floating point numbers that has been read from anywhere is such an envelope: written and read again,
it is what it was. -/
theorem reading_undoes_writing :
    (∀ e : Envelope, e.Portable → ofBytes? e.toBytes = some e) ∧
      ∀ (bytes : Bytes) (e : Envelope), ofBytes? bytes = some e → e.Exact →
        e.Portable ∧ ofBytes? e.toBytes = some e := by
  refine ⟨fun e h => ofBytes?_toBytes h, fun bytes e hread exact => ?_⟩
  have portable := portable_of_ofBytes? hread exact
  exact ⟨portable, ofBytes?_toBytes portable⟩

/-- A response with the greatest callback id, with the least number and with an error. -/
def nestedResponse : Envelope :=
  { kind := .response, procedure := "", callbackId := ⟨18446744073709551615⟩,
    data := some (.object [("a", .array [.ofInt (-9223372036854775808), .bool true]),
      ("b", .object [])]),
    error := some ⟨"errorReturned", "\"é\"\n"⟩ }

/-- The members of the response as an array, in which neither the order of the names nor the
escapes are those in which it is written. -/
def nestedSpelling : Bytes :=
  Text.utf8 ("[\"res\", \"\", 18446744073709551615, " ++
    "\x7b\"b\": \x7b\x7d, \"a\":[-9223372036854775808, true]\x7d, " ++
    "[\"errorReturned\", \"\\u0022\\u00e9\\\"\\n\"]]")

theorem reading_undoes_writing_nestedResponse :
    ofBytes? nestedSpelling = some nestedResponse ∧ nestedResponse.Portable ∧
      ofBytes? nestedResponse.toBytes = some nestedResponse := by
  have read : ofBytes? nestedSpelling = some nestedResponse := by decide +kernel
  have exact : nestedResponse.Exact := by
    intro data hdata
    obtain rfl := Option.some.inj hdata
    exact ⟨⟨trivial, trivial, trivial⟩, trivial, trivial⟩
  have portable := (reading_undoes_writing.2 nestedSpelling nestedResponse read exact).1
  exact ⟨read, portable, reading_undoes_writing.1 nestedResponse portable⟩

end Envelope

end DuplexRpc
