import DuplexRpc.PendingCalls

/-!
# The table of waiting calls

A call waits under an id that no other call waits under, and that is never the id of
calls without an answer. To take a call away leaves all others where they are.
-/

namespace DuplexRpc.PendingCalls

variable {α : Type} {p q : PendingCalls α} {id : CallbackId} {call : α}

/-- What registering and taking calls keeps of a table. -/
structure WellFormed (p : PendingCalls α) : Prop where
  distinct : (p.waiting.map (·.1)).Nodup
  none_notMem : CallbackId.none ∉ p.waiting.map (·.1)
  nextId : p.nextId ≠ .none

theorem WellFormed.empty : (empty : PendingCalls α).WellFormed :=
  ⟨List.nodup_nil, List.not_mem_nil, show CallbackId.first ≠ .none by decide⟩

theorem find?_eq_none_iff : p.find? id = none ↔ id ∉ p.waiting.map (·.1) := by
  rw [find?, List.lookup_eq_none_iff, List.mem_map]
  constructor
  · rintro h ⟨entry, hmem, rfl⟩
    exact bne_iff_ne.mp (h entry hmem) rfl
  · intro h entry hmem
    exact bne_iff_ne.mpr fun same => h ⟨entry, hmem, same.symm⟩

/-- A call that waits has a place of its own. -/
theorem WellFormed.notMem_of_split (hp : p.WellFormed) {later earlier : List (CallbackId × α)}
    (hsplit : p.waiting = later ++ (id, call) :: earlier) :
    id ∉ later.map (·.1) ∧ id ∉ earlier.map (·.1) := by
  have distinct := hp.distinct
  rw [hsplit, List.map_append, List.map_cons, List.nodup_append, List.nodup_cons] at distinct
  obtain ⟨_, ⟨hearlier, _⟩, hdisjoint⟩ := distinct
  exact ⟨fun hmem => hdisjoint id hmem id List.mem_cons_self rfl, hearlier⟩

theorem split_of_find? (h : p.find? id = some call) :
    ∃ later earlier, p.waiting = later ++ (id, call) :: earlier := by
  obtain ⟨later, earlier, hsplit, _⟩ := List.lookup_eq_some_iff.mp h
  exact ⟨later, earlier, hsplit⟩

theorem WellFormed.find?_eq_some_iff (hp : p.WellFormed) :
    p.find? id = some call ↔ (id, call) ∈ p.waiting := by
  constructor
  · intro h
    obtain ⟨later, earlier, hsplit⟩ := split_of_find? h
    rw [hsplit]
    exact List.mem_append_right _ List.mem_cons_self
  · intro hmem
    cases hf : p.find? id with
    | none => exact absurd (List.mem_map_of_mem hmem) (find?_eq_none_iff.mp hf)
    | some other =>
        obtain ⟨later, earlier, hsplit⟩ := split_of_find? hf
        obtain ⟨hlater, hearlier⟩ := hp.notMem_of_split hsplit
        rw [hsplit, List.mem_append, List.mem_cons] at hmem
        rcases hmem with hmem | heq | hmem
        · exact absurd (List.mem_map_of_mem hmem) hlater
        · rw [(Prod.mk.inj heq).2]
        · exact absurd (List.mem_map_of_mem hmem) hearlier

theorem WellFormed.find?_none (hp : p.WellFormed) : p.find? .none = none :=
  find?_eq_none_iff.mpr hp.none_notMem

/-! ### Registering -/

theorem freeId?_ne_none {start : CallbackId} {tries : Nat} (hs : start ≠ .none)
    (h : p.freeId? start tries = some id) : id ≠ .none := by
  induction tries generalizing start with
  | zero => cases h
  | succ tries ih =>
      rw [freeId?] at h
      split at h
      next =>
        obtain rfl := Option.some.inj h
        exact hs
      next => exact ih (CallbackId.next_ne_none start) h

theorem eq_of_register? (h : p.register? call = some (id, q)) :
    q = { waiting := (id, call) :: p.waiting, nextId := id.next } ∧
      p.freeId? p.nextId (p.waiting.length + 1) = some id := by
  obtain ⟨found, hfound, heq⟩ := Option.map_eq_some_iff.mp h
  obtain ⟨rfl, rfl⟩ := Prod.mk.inj heq
  exact ⟨rfl, hfound⟩

theorem WellFormed.register? (hp : p.WellFormed) (h : p.register? call = some (id, q)) :
    q.WellFormed := by
  obtain ⟨rfl, hfound⟩ := eq_of_register? h
  have fresh := find?_eq_none_iff.mp (find?_of_freeId? hfound)
  refine ⟨List.nodup_cons.mpr ⟨fresh, hp.distinct⟩, fun hmem => ?_, id.next_ne_none⟩
  rcases List.mem_cons.mp hmem with hid | hmem
  · exact freeId?_ne_none hp.nextId hfound hid.symm
  · exact hp.none_notMem hmem

/-! ### Taking -/

theorem filter_eq_self_of_notMem {waiting : List (CallbackId × α)} (h : id ∉ waiting.map (·.1)) :
    waiting.filter (·.1 != id) = waiting := by
  refine List.filter_eq_self.mpr fun entry hmem => ?_
  exact bne_iff_ne.mpr fun same => h (List.mem_map.mpr ⟨entry, hmem, same⟩)

/-- What is left has all other calls in their places. -/
theorem WellFormed.filter_waiting (hp : p.WellFormed) {later earlier : List (CallbackId × α)}
    (hsplit : p.waiting = later ++ (id, call) :: earlier) :
    p.waiting.filter (·.1 != id) = later ++ earlier := by
  obtain ⟨hlater, hearlier⟩ := hp.notMem_of_split hsplit
  rw [hsplit, List.filter_append, List.filter_cons_of_neg (by simp),
    filter_eq_self_of_notMem hlater, filter_eq_self_of_notMem hearlier]

theorem eq_of_take (h : p.take id = some (call, q)) :
    p.find? id = some call ∧ q = { p with waiting := p.waiting.filter (·.1 != id) } := by
  obtain ⟨found, hfound, heq⟩ := Option.map_eq_some_iff.mp h
  obtain ⟨rfl, rfl⟩ := Prod.mk.inj heq
  exact ⟨hfound, rfl⟩

theorem WellFormed.take (hp : p.WellFormed) (h : p.take id = some (call, q)) : q.WellFormed := by
  obtain ⟨_, rfl⟩ := eq_of_take h
  have sublist : (p.waiting.filter (·.1 != id)).map (·.1) |>.Sublist (p.waiting.map (·.1)) :=
    List.filter_sublist.map _
  exact ⟨hp.distinct.sublist sublist, fun hmem => hp.none_notMem (sublist.subset hmem), hp.nextId⟩

end DuplexRpc.PendingCalls
