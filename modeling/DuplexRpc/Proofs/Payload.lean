import DuplexRpc.Payload
import DuplexRpc.Proofs.Envelope

/-!
# Checked values

Values that pass a check fit the declared parameters: every parameter has a value of
its type, and nothing else has a value. Values that fit pass the check again as they
are, and they survive the way through an envelope. So what one end has checked, the
other end finds in order.
-/

namespace DuplexRpc

/-- What a definition guarantees of the parameters that it declares. -/
structure Param.WellFormed (params : List Param) : Prop where
  distinct : (params.map (·.name)).Nodup
  builtin : ∀ p ∈ params, ∃ type : Builtin, type.isParamType ∧ p.type = .builtin type

/-- Whether values are exactly those of declared parameters. -/
structure Values.Fits (v : Values) (params : List Param) : Prop where
  typed : ∀ p ∈ params, ∃ value, v.find? p.name = some value ∧ p.type.accepts value
  declared : ∀ name value, v.find? name = some value → ∃ p ∈ params, p.name = name

theorem Values.ext {v w : Values} (h : ∀ name, v.find? name = w.find? name) : v = w := by
  obtain ⟨fields⟩ := v
  obtain ⟨others⟩ := w
  exact congrArg Values.mk (Table.ext h)

/-! ### Builtin types -/

theorem Builtin.accepts_zero (type : Builtin) : type.accepts type.zero := by
  cases type <;> decide

/-- A value of a builtin type is a truth value, a string or a whole number. -/
theorem Builtin.cases_of_accepts {type : Builtin} {value : Json} (h : type.accepts value) :
    (∃ b, value = .bool b) ∨ (∃ s, value = .string s) ∨
      ∃ n inRange, value = .number (.integer n inRange) := by
  unfold accepts at h
  split at h
  · exact .inr (.inl ⟨_, rfl⟩)
  · exact .inl ⟨_, rfl⟩
  · exact .inr (.inr ⟨_, _, rfl⟩)
  · cases h

/-! ### Checking the fields -/

section

variable {fields : Table Json} {done v : Values} {params : List Param}

/-- The first parameter takes its value, and what is left serves the others. -/
theorem conformFields_cons {p : Param} (h : conformFields fields done (p :: params) = .ok v) :
    (∀ value, fields.find? p.name = some value → p.type.accepts value) ∧
      ∃ left : Table Json, (∀ name, name ≠ p.name → left.find? name = fields.find? name) ∧
        conformFields left (done.insert p.name ((fields.find? p.name).getD p.type.zero)) params =
          .ok v := by
  rw [conformFields] at h
  split at h
  next value hv =>
    split at h
    next accepted =>
      refine ⟨fun other hother => ?_, fields.erase p.name, fun name hn => ?_, ?_⟩
      · obtain rfl : value = other := Option.some.inj (hv.symm.trans hother)
        exact accepted
      · rw [Table.find?_erase, if_neg hn]
      · rwa [hv]
    next => cases h
  next hv =>
    refine ⟨fun value hother => ?_, fields, fun _ _ => rfl, ?_⟩
    · rw [hv] at hother
      cases hother
    · rwa [hv]

theorem name_ne_of_mem {p q : Param} (fresh : p.name ∉ params.map (·.name)) (hq : q ∈ params) :
    q.name ≠ p.name :=
  fun same => fresh (same ▸ List.mem_map_of_mem hq)

/-- What the values are that come out of a check. -/
theorem find?_of_conformFields (distinct : (params.map (·.name)).Nodup)
    (h : conformFields fields done params = .ok v) :
    (∀ p ∈ params, v.find? p.name = some ((fields.find? p.name).getD p.type.zero)) ∧
      ∀ name, name ∉ params.map (·.name) → v.find? name = done.find? name := by
  induction params generalizing fields done with
  | nil =>
      obtain rfl := Except.ok.inj h
      exact ⟨fun p hp => absurd hp List.not_mem_nil, fun _ _ => rfl⟩
  | cons p rest ih =>
      obtain ⟨fresh, distinct⟩ := List.nodup_cons.mp distinct
      obtain ⟨_, left, same, h⟩ := conformFields_cons h
      obtain ⟨found, kept⟩ := ih distinct h
      refine ⟨fun q hq => ?_, fun name hn => ?_⟩
      · rcases List.mem_cons.mp hq with rfl | hq
        · rw [kept _ fresh, Values.find?_insert, if_pos rfl]
        · rw [found q hq, same _ (name_ne_of_mem fresh hq)]
      · rw [List.map_cons, List.mem_cons, not_or] at hn
        rw [kept name hn.2, Values.find?_insert, if_neg hn.1]

theorem accepts_of_conformFields (distinct : (params.map (·.name)).Nodup)
    (h : conformFields fields done params = .ok v) {p : Param} (hp : p ∈ params) {value : Json}
    (hv : fields.find? p.name = some value) : p.type.accepts value := by
  induction params generalizing fields done with
  | nil => exact absurd hp List.not_mem_nil
  | cons q rest ih =>
      obtain ⟨fresh, distinct⟩ := List.nodup_cons.mp distinct
      obtain ⟨accepted, left, same, h⟩ := conformFields_cons h
      rcases List.mem_cons.mp hp with rfl | hp
      · exact accepted value hv
      · exact ih distinct h hp ((same _ (name_ne_of_mem fresh hp)).trans hv)

/-- A check succeeds when all values that it finds are of the right types. -/
theorem conformFields_of_accepts (distinct : (params.map (·.name)).Nodup)
    (h : ∀ p ∈ params, ∀ value, fields.find? p.name = some value → p.type.accepts value) :
    ∃ v, conformFields fields done params = .ok v := by
  induction params generalizing fields done with
  | nil => exact ⟨done, rfl⟩
  | cons p rest ih =>
      obtain ⟨fresh, distinct⟩ := List.nodup_cons.mp distinct
      rw [conformFields]
      split
      next value hv =>
        rw [if_pos (h p List.mem_cons_self value hv)]
        refine ih distinct fun q hq value hv => h q (List.mem_cons_of_mem _ hq) value ?_
        rwa [Table.find?_erase, if_neg (name_ne_of_mem fresh hq)] at hv
      next => exact ih distinct fun q hq => h q (List.mem_cons_of_mem _ hq)

end

/-! ### Checking a payload -/

theorem payloadFields_toJson (v : Values) : payloadFields (some v.toJson) = .ok v.fields := by
  have same : Table.ofList v.fields.entries = v.fields := by
    have entries := Table.entries_ofList v.fields.ascending
    generalize Table.ofList v.fields.entries = t at entries
    cases t
    cases hf : v.fields
    simp_all
  exact congrArg Except.ok same

variable {params : List Param} {v : Values}

/-- What comes out of a check fits. -/
theorem fits_of_conform (wf : Param.WellFormed params) {payload : Option Json}
    (h : conform params payload = .ok v) : v.Fits params := by
  rw [conform] at h
  split at h
  next fields _ =>
    obtain ⟨found, kept⟩ := find?_of_conformFields wf.distinct h
    refine ⟨fun p hp => ⟨_, found p hp, ?_⟩, fun name value hv => ?_⟩
    · cases hf : fields.find? p.name with
      | some value => exact accepts_of_conformFields wf.distinct h hp hf
      | none =>
          obtain ⟨type, _, ht⟩ := wf.builtin p hp
          rw [ht]
          exact type.accepts_zero
    · by_cases hn : name ∈ params.map (·.name)
      · exact List.mem_map.mp hn
      · rw [kept name hn] at hv
        cases hv
  next => cases h

/-- Values that fit are let through as they are. -/
theorem conform_toJson (wf : Param.WellFormed params) (h : v.Fits params) :
    conform params (some v.toJson) = .ok v := by
  have accepted : ∀ p ∈ params, ∀ value, v.fields.find? p.name = some value →
      p.type.accepts value := by
    intro p hp value hv
    obtain ⟨other, hother, typed⟩ := h.typed p hp
    obtain rfl : value = other := Option.some.inj (hv.symm.trans hother)
    exact typed
  obtain ⟨w, hw⟩ : ∃ w, conformFields v.fields .empty params = .ok w :=
    conformFields_of_accepts wf.distinct accepted
  obtain ⟨found, kept⟩ := find?_of_conformFields wf.distinct hw
  have same : w = v := Values.ext fun name => by
    by_cases hn : name ∈ params.map (·.name)
    · obtain ⟨p, hp, rfl⟩ := List.mem_map.mp hn
      obtain ⟨value, hv, _⟩ := h.typed p hp
      rw [found p hp, show v.fields.find? p.name = some value from hv, hv, Option.getD_some]
    · rw [kept name hn, Values.find?_empty]
      cases hv : v.find? name with
      | none => rfl
      | some value =>
          obtain ⟨p, hp, rfl⟩ := h.declared name value hv
          exact absurd (List.mem_map_of_mem hp) hn
  rw [conform, payloadFields_toJson]
  exact hw.trans (congrArg Except.ok same)

/-! ### Travelling -/

namespace Values

/-- Values that fit are single values under their names. -/
theorem Fits.flat (wf : Param.WellFormed params) (h : v.Fits params) {name : String} {value : Json}
    (hv : (name, value) ∈ v.fields.entries) :
    value.Canonical ∧ value.Exact ∧ value.height = 0 := by
  have found : v.find? name = some value := Table.find?_eq_some_iff.mpr hv
  obtain ⟨p, hp, rfl⟩ := h.declared name value found
  obtain ⟨other, hother, typed⟩ := h.typed p hp
  obtain rfl : value = other := Option.some.inj (found.symm.trans hother)
  obtain ⟨type, _, ht⟩ := wf.builtin p hp
  rw [ht] at typed
  rcases type.cases_of_accepts typed with ⟨b, rfl⟩ | ⟨s, rfl⟩ | ⟨n, inRange, rfl⟩ <;>
    exact ⟨trivial, trivial, rfl⟩

theorem Fits.portable (wf : Param.WellFormed params) (h : v.Fits params) : v.toJson.Portable := by
  have members : ∀ l : List (String × Json), (∀ entry ∈ l, entry ∈ v.fields.entries) →
      Json.CanonicalMembers l ∧ Json.ExactMembers l ∧ Json.heightOfMembers l = 0 := by
    intro l hl
    induction l with
    | nil => exact ⟨trivial, trivial, rfl⟩
    | cons entry rest ih =>
        obtain ⟨name, value⟩ := entry
        obtain ⟨canonical, exact, height⟩ := h.flat wf (hl _ List.mem_cons_self)
        obtain ⟨canonicals, exacts, heights⟩ := ih fun e he => hl e (List.mem_cons_of_mem _ he)
        exact ⟨⟨canonical, canonicals⟩, ⟨exact, exacts⟩, by
          rw [Json.heightOfMembers, height, heights, Nat.max_self]⟩
  obtain ⟨canonical, exact, height⟩ := members _ fun _ he => he
  refine ⟨nofun, ⟨v.fields.ascending, canonical⟩, exact, ?_⟩
  change Json.heightOfMembers v.fields.entries + 1 ≤ _
  rw [height]
  decide

end Values

end DuplexRpc
