import DuplexRpc.Proofs.Connection.Moves
import DuplexRpc.Proofs.Payload.Readers

/-!
# Checking again

What comes out of a check passes the same check again and stays what it is, also when
members that are not declared are put in between. So an end that checks before it sends
never makes the check of the far end fail, and both ends have the same values.

All this takes parameters as a definition declares them. The value that is filled in for
a parameter must itself be of the type, and no other parameter may have the same name.
-/

namespace DuplexRpc

/-- Values pass the check against parameters as they are. -/
structure PassesAgain (params : List Param) (v : Values) : Prop where
  again : conform params (some v.toJson) = .ok v
  /-- Members that are not declared may be added anywhere. -/
  widened : ∀ {members extra}, (∀ member ∈ extra, member.1 ∉ params.map (·.name)) →
    members.Perm (v.fields.entries ++ extra) → conform params (some (.object members)) = .ok v
  /-- They pass at the far end of a connection, whatever envelope carries them. -/
  carried : ∀ {e : Envelope}, e.data = some v.toJson →
    ∃ read, Envelope.ofBytes? e.toBytes = some read ∧ conform params read.data = .ok v

/-! ### Members that are not declared -/

namespace Payload

variable {members others extra : List (String × Json)} {name : String}

/-- Only members of a name count for the value of the name. -/
theorem valueOf?_filter (name : String) (members : List (String × Json)) :
    valueOf? name (members.filter (·.1 = name)) = valueOf? name members := by
  induction members with
  | nil => rfl
  | cons member rest ih =>
      by_cases same : member.1 = name
      · rw [List.filter_cons_of_pos (by simpa using same), valueOf?, valueOf?, ih]
      · rw [List.filter_cons_of_neg (by simpa using same), ih, valueOf?, if_neg same,
          Option.or_none]

theorem valueOf?_of_widened (distinct : (members.map Prod.fst).Nodup)
    (undeclared : ∀ member ∈ extra, member.1 ≠ name) (perm : others.Perm (members ++ extra)) :
    valueOf? name others = valueOf? name members := by
  have none_added : extra.filter (·.1 = name) = [] :=
    List.filter_eq_nil_iff.mpr fun member hmem => by simpa using undeclared member hmem
  have same : (members.filter (·.1 = name)).Perm (others.filter (·.1 = name)) := by
    have filtered := (perm.filter (·.1 = name)).symm
    rwa [List.filter_append, none_added, List.append_nil] at filtered
  have own : ((members.filter (·.1 = name)).map Prod.fst).Nodup :=
    distinct.sublist (List.filter_sublist.map _)
  calc valueOf? name others
    _ = valueOf? name (others.filter (·.1 = name)) := (valueOf?_filter name others).symm
    _ = valueOf? name (members.filter (·.1 = name)) := valueOf?_of_perm own same name
    _ = valueOf? name members := valueOf?_filter name members

end Payload

theorem Values.distinct_names (v : Values) : (v.fields.entries.map Prod.fst).Nodup := by
  refine List.pairwise_map.mpr (v.fields.ascending.imp ?_)
  intro a b before same
  exact String.lt_irrefl b.1 (same ▸ before)

/-! ### Checking what has been checked -/

variable {params : List Param} {v : Values}

theorem passesAgain (wf : Param.WellFormed params) (fits : v.Fits params) :
    PassesAgain params v where
  again := conform_toJson wf fits
  widened := by
    intro members extra undeclared perm
    rw [← conform_toJson wf fits]
    refine Payload.conform_congr (.object v.fields.entries) fun p hp => ?_
    refine Payload.valueOf?_of_widened v.distinct_names (fun member hmem same => ?_) perm
    exact undeclared member hmem (same ▸ List.mem_map_of_mem hp)
  carried := by
    intro e data
    have portable : e.Portable := by
      intro d hd
      obtain rfl : v.toJson = d := Option.some.inj (data.symm.trans hd)
      exact fits.portable wf
    exact ⟨e, Envelope.ofBytes?_toBytes portable, data ▸ conform_toJson wf fits⟩

/-- To check values again changes nothing, at either end of a connection: what a peer has prepared
is found in order by the end that serves it. -/
theorem checked_values_pass_again {source : Source} {service : Service}
    (parsed : Service.parse source = .ok service) :
    (∀ (side : Side) (key : String) (procedure : Procedure),
      (service.procedures side).find? key = some procedure →
        ∀ params, params = procedure.args ∨ params = procedure.rets →
          ∀ (payload : Option Json) (v : Values), conform params payload = .ok v →
            PassesAgain params v) ∧
    ∀ (peer : Peer) (name : String) (args : Values) (procedure : Procedure) (checked : Values),
      peer.service = service → peer.prepare name args = .ok (procedure, checked) →
        ∀ id, ∃ read, Envelope.ofBytes? (Envelope.request procedure.name id checked).toBytes =
            some read ∧ (service.procedures peer.side).find? read.procedure = some procedure ∧
              conform procedure.args read.data = .ok checked := by
  have wf := Service.wellFormed_of_parse parsed
  constructor
  · intro side key procedure found params own payload v passed
    have declared : Param.WellFormed params := by
      rcases own with rfl | rfl
      · exact (wf.procedure found).args
      · exact (wf.procedure found).rets
    exact passesAgain declared (fits_of_conform declared passed)
  · rintro peer name args procedure checked rfl prepared id
    obtain ⟨found, passed⟩ := Peer.eq_of_prepare prepared
    have declared := (wf.procedure found).args
    have fits := fits_of_conform declared passed
    have portable : (Envelope.request procedure.name id checked).Portable := by
      intro d hd
      obtain rfl : checked.toJson = d := Option.some.inj hd
      exact fits.portable declared
    refine ⟨_, Envelope.ofBytes?_toBytes portable, ?_, conform_toJson declared fits⟩
    change (peer.service.procedures peer.side).find? procedure.name = some procedure
    rwa [wf.name found]

/-- The unit that `gaugePayload` leaves out has been filled in. -/
theorem checked_values_pass_again_gauge :
    let service := (Service.named "gauge").addProcedure gauge
    let v := ((Values.empty.insert "peak" (.ofInt 18446744073709551615)).insert "floor"
      (.ofInt (-128))).insert "unit" (.string "")
    Service.parse gaugeSource = .ok service ∧ conform gauge.args (some gaugePayload) = .ok v ∧
      PassesAgain gauge.args v ∧
        conform gauge.args (some (.object [("unit", .string ""), ("spare", .null),
          ("peak", .ofInt 18446744073709551615), ("floor", .ofInt (-128))])) = .ok v := by
  intro service v
  have parsed : Service.parse gaugeSource = .ok service := eq_ok_of_toOption (by decide +kernel)
  have passed : conform gauge.args (some gaugePayload) = .ok v :=
    eq_ok_of_toOption (by decide +kernel)
  have again := (checked_values_pass_again parsed).1 .server "set" gauge (by decide +kernel) _
    (.inl rfl) _ _ passed
  have mixed : List.Perm [("unit", .string ""), ("spare", .null),
      ("peak", .ofInt 18446744073709551615), ("floor", .ofInt (-128))]
      (v.fields.entries ++ [("spare", Json.null)]) := by decide +kernel
  exact ⟨parsed, passed, again, again.widened (by decide) mixed⟩

/-- A definition cannot declare two parameters of one name. The second of them would take its zero
value, which need not be of the type of the first. -/
example :
    let params : List Param := [⟨"a", .builtin .int⟩, ⟨"a", .builtin .string⟩]
    let v := Values.empty.insert "a" (.string "")
    conform params (some (.object [("a", .ofInt 5)])) = .ok v ∧
      conform params (some v.toJson) = .error (.typeMismatch "a" "int" .string) :=
  ⟨rfl, rfl⟩

end DuplexRpc
