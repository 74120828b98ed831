import DuplexRpc.Proofs.PendingCalls
import Mathlib.Algebra.Group.Nat.Defs
import Mathlib.Data.List.Nodup
import Mathlib.Data.List.Range
import Mathlib.Data.Nat.Find
import Mathlib.Logic.Function.Iterate

/-!
# The search for a free id

A new call looks at one id after another until it finds one that no call waits under.
Nothing in this search counts how often it goes on. It comes to an end because the ids
go around a cycle in which each comes once, so the ids that have been found taken belong
to as many waiting calls.
-/

namespace DuplexRpc

namespace CallbackId

variable {id other : CallbackId}

theorem eq_of_toNat_eq (h : id.value.toNat = other.value.toNat) : id = other :=
  congrArg mk (UInt64.toNat_inj.mp h)

theorem pos_of_ne_none (h : id ≠ none) : 0 < id.value.toNat :=
  Nat.pos_of_ne_zero fun zero => h (eq_of_toNat_eq zero)

/-! ### The cycle of ids -/

/-- The number of the `k`-th id behind another one. -/
theorem toNat_iterate_next (h : id ≠ none) (k : Nat) :
    (next^[k] id).value.toNat = (id.value.toNat - 1 + k) % (2 ^ 64 - 1) + 1 := by
  have pos := pos_of_ne_none h
  have bound := id.value.toNat_lt
  induction k with
  | zero =>
      rw [Function.iterate_zero_apply]
      omega
  | succ k ih =>
      rw [Function.iterate_succ_apply', toNat_next, ih]
      simp only [UInt64.size]
      split <;> omega

theorem iterate_next_ne_none (h : id ≠ none) (k : Nat) : next^[k] id ≠ none := by
  intro zero
  have number := toNat_iterate_next h k
  rw [zero] at number
  exact absurd number (Nat.succ_ne_zero _).symm

/-- Within one round of the cycle no id comes twice. -/
theorem iterate_next_inj (h : id ≠ none) {j k : Nat} (hj : j < 2 ^ 64 - 1) (hk : k < 2 ^ 64 - 1)
    (same : next^[j] id = next^[k] id) : j = k := by
  have numbers : (next^[j] id).value.toNat = (next^[k] id).value.toNat := by rw [same]
  rw [toNat_iterate_next h, toNat_iterate_next h] at numbers
  omega

/-- Every id but that of calls without an answer comes in every round of the cycle. -/
theorem exists_iterate_next_eq (h : id ≠ none) (ho : other ≠ none) :
    ∃ k < 2 ^ 64 - 1, next^[k] id = other := by
  have pos := pos_of_ne_none h
  have bound := id.value.toNat_lt
  have other_pos := pos_of_ne_none ho
  have other_bound := other.value.toNat_lt
  refine ⟨(other.value.toNat + (2 ^ 64 - 1) - id.value.toNat) % (2 ^ 64 - 1),
    Nat.mod_lt _ (by decide), eq_of_toNat_eq ?_⟩
  rw [toNat_iterate_next h, Nat.add_mod_mod]
  omega

/-- An id and those that follow it. -/
def round (id : CallbackId) (length : Nat) : List CallbackId :=
  (List.range length).map (next^[·] id)

@[simp] theorem length_round (id : CallbackId) (length : Nat) :
    (id.round length).length = length := by
  rw [round, List.length_map, List.length_range]

theorem round_succ (id : CallbackId) (length : Nat) :
    id.round (length + 1) = id :: id.next.round length := by
  rw [round, List.range_succ_eq_map, List.map_cons, List.map_map]
  rfl

theorem mem_round {length : Nat} : other ∈ id.round length ↔ ∃ k < length, next^[k] id = other := by
  simp only [round, List.mem_map, List.mem_range]

theorem nodup_round (h : id ≠ none) {length : Nat} (most : length ≤ 2 ^ 64 - 1) :
    (id.round length).Nodup := by
  refine List.Nodup.map_on (fun j hj k hk same => ?_) List.nodup_range
  rw [List.mem_range] at hj hk
  exact iterate_next_inj h (Nat.lt_of_lt_of_le hj most) (Nat.lt_of_lt_of_le hk most) same

end CallbackId

namespace PendingCalls

open CallbackId (next)

variable {α : Type} {p : PendingCalls α} {start id : CallbackId} {k : Nat}

/-- The search from an id on: the ids that are looked at, and the one that is found. -/
inductive Search (p : PendingCalls α) : CallbackId → List CallbackId → CallbackId → Prop
  | free {id : CallbackId} (hfree : p.find? id = none) : Search p id [id] id
  | taken {id found : CallbackId} {probed : List CallbackId} (htaken : p.find? id ≠ none)
      (later : Search p id.next probed found) : Search p id (id :: probed) found

/-- The `k`-th id behind one is the first that is free. -/
structure FirstFree (p : PendingCalls α) (start : CallbackId) (k : Nat) : Prop where
  free : p.find? (next^[k] start) = none
  taken : ∀ j < k, p.find? (next^[j] start) ≠ none

namespace FirstFree

theorem unique (h : FirstFree p start k) {j : Nat} (hj : FirstFree p start j) : j = k := by
  rcases Nat.lt_trichotomy j k with less | same | more
  · exact absurd hj.free (h.taken j less)
  · exact same
  · exact absurd h.free (hj.taken k more)

theorem zero (h : p.find? start = none) : FirstFree p start 0 := ⟨h, nofun⟩

theorem succ (h : p.find? start ≠ none) (hk : FirstFree p start.next k) :
    FirstFree p start (k + 1) := by
  refine ⟨hk.free, fun j hj => ?_⟩
  cases j with
  | zero => exact h
  | succ j => exact hk.taken j (Nat.lt_of_succ_lt_succ hj)

/-- Behind an id that is taken the search goes on in the same way. -/
theorem behind (h : FirstFree p start (k + 1)) :
    p.find? start ≠ none ∧ FirstFree p start.next k :=
  ⟨h.taken 0 (Nat.succ_pos k), h.free, fun j hj => h.taken (j + 1) (Nat.succ_lt_succ hj)⟩

theorem search (h : FirstFree p start k) :
    Search p start (start.round (k + 1)) (next^[k] start) := by
  induction k generalizing start with
  | zero => exact .free h.free
  | succ k ih =>
      obtain ⟨taken, later⟩ := h.behind
      rw [CallbackId.round_succ]
      exact .taken taken (ih later)

/-- With a bound, the search finds the same id as soon as the bound lets it get there. -/
theorem freeId?_eq (h : FirstFree p start k) (tries : Nat) :
    p.freeId? start tries = if k < tries then some (next^[k] start) else none := by
  induction tries generalizing start k with
  | zero => rfl
  | succ tries ih =>
      rw [freeId?, isFree]
      cases k with
      | zero =>
          have free : p.find? start = none := h.free
          rw [free, if_pos (Nat.succ_pos tries)]
          rfl
      | succ k =>
          obtain ⟨taken, later⟩ := h.behind
          rw [if_neg (by simpa using taken), ih later]
          simp only [Nat.succ_lt_succ_iff]
          rfl

end FirstFree

theorem Search.firstFree {probed : List CallbackId} {found : CallbackId}
    (h : Search p start probed found) :
    ∃ k, FirstFree p start k ∧ probed = start.round (k + 1) ∧ found = next^[k] start := by
  induction h with
  | free hfree => exact ⟨0, .zero hfree, rfl, rfl⟩
  | @taken start found probed htaken _ ih =>
      obtain ⟨k, first, rfl, rfl⟩ := ih
      exact ⟨k + 1, first.succ htaken, (CallbackId.round_succ start (k + 1)).symm, rfl⟩

/-- The search has one way to go. -/
theorem FirstFree.search_iff (h : FirstFree p start k) {probed : List CallbackId}
    {found : CallbackId} :
    Search p start probed found ↔
      probed = start.round (k + 1) ∧ found = next^[k] start := by
  constructor
  · intro search
    obtain ⟨j, first, rfl, rfl⟩ := search.firstFree
    obtain rfl := h.unique first
    exact ⟨rfl, rfl⟩
  · rintro ⟨rfl, rfl⟩
    exact h.search

/-! ### How long a search takes -/

/-- As many ids of a round as are taken in a row, as many calls wait at least. -/
theorem le_length_of_taken (hs : start ≠ .none) (most : k ≤ 2 ^ 64 - 1)
    (taken : ∀ j < k, p.find? (next^[j] start) ≠ none) : k ≤ p.waiting.length := by
  have keys : start.round k ⊆ p.waiting.map (·.1) := by
    intro id hmem
    obtain ⟨j, hj, rfl⟩ := CallbackId.mem_round.mp hmem
    exact Classical.not_not.mp (mt find?_eq_none_iff.mpr (taken j hj))
  have length := (CallbackId.nodup_round hs most).length_le_of_subset keys
  rwa [CallbackId.length_round, List.length_map] at length

/-- If any id is free, there is a first one, and it comes before more ids have been looked at than
calls wait. -/
theorem exists_firstFree (hs : start ≠ .none) (room : ∃ id, id ≠ .none ∧ p.find? id = none) :
    ∃ k ≤ p.waiting.length, FirstFree p start k := by
  obtain ⟨id, nonzero, free⟩ := room
  obtain ⟨i, hi, rfl⟩ := CallbackId.exists_iterate_next_eq hs nonzero
  have some_free : ∃ k, p.find? (next^[k] start) = none := ⟨i, free⟩
  have first : FirstFree p start (Nat.find some_free) :=
    ⟨Nat.find_spec some_free, fun j hj => Nat.find_min some_free hj⟩
  have most : Nat.find some_free ≤ 2 ^ 64 - 1 :=
    Nat.le_of_lt (Nat.lt_of_le_of_lt (Nat.find_min' some_free free) hi)
  exact ⟨_, le_length_of_taken hs most first.taken, first⟩

/-- Fewer calls than there are ids leave one free. -/
theorem exists_free_of_few (few : p.waiting.length < 2 ^ 64 - 1) :
    ∃ id, id ≠ .none ∧ p.find? id = none := by
  by_contra full
  have taken : ∀ j < 2 ^ 64 - 1, p.find? (next^[j] .first) ≠ none := fun j _ free =>
    full ⟨_, CallbackId.iterate_next_ne_none (by decide) j, free⟩
  exact absurd (le_length_of_taken (by decide) (Nat.le_refl _) taken) (Nat.not_le_of_lt few)

/-! ### Registering -/

/-- All that registering a call comes to, when `k` ids are looked at before the one that it gets. -/
structure FirstFit (p : PendingCalls α) (call : α) (k : Nat) (id : CallbackId) : Prop where
  /-- The ids are looked at in the order of the cycle, and this is the number of each. -/
  cycle : ∀ i, (next^[i] p.nextId).value.toNat =
    (p.nextId.value.toNat - 1 + i) % (2 ^ 64 - 1) + 1
  /-- The id is the first that is free. -/
  eq : id = next^[k] p.nextId
  free : p.find? id = none
  taken : ∀ j < k, p.find? (next^[j] p.nextId) ≠ none
  /-- The search comes to an end with this id, and looks at no others than those before it. -/
  search : ∀ {probed found}, p.Search p.nextId probed found ↔
    probed = p.nextId.round (k + 1) ∧ found = id
  few : ∀ {probed found}, p.Search p.nextId probed found → probed.length ≤ p.waiting.length + 1
  nonzero : ∀ {probed found}, p.Search p.nextId probed found → .none ∉ probed
  /-- The call waits under the id, and the next search begins behind it. -/
  registered : p.register? call = some (id,
    { waiting := (id, call) :: p.waiting, nextId := next^[k + 1] p.nextId })

theorem register?_of_firstFree (h : FirstFree p p.nextId k) (few : k ≤ p.waiting.length)
    (call : α) : p.register? call = some (next^[k] p.nextId,
      { waiting := (next^[k] p.nextId, call) :: p.waiting
        nextId := next^[k + 1] p.nextId }) := by
  rw [register?, h.freeId?_eq, if_pos (Nat.lt_succ_of_le few), Option.map_some,
    Function.iterate_succ_apply']

/-- A call gets the first free id behind the last one that was given out. -/
theorem first_free_id_is_given {p : PendingCalls α} (started : p.nextId ≠ .none)
    (room : ∃ id, id ≠ .none ∧ p.find? id = none) (call : α) :
    ∃ k id, FirstFit p call k id := by
  obtain ⟨k, few, first⟩ := exists_firstFree started room
  refine ⟨k, next^[k] p.nextId, ?_⟩
  constructor
  case cycle => exact CallbackId.toNat_iterate_next started
  case eq => rfl
  case free => exact first.free
  case taken => exact first.taken
  case search => exact first.search_iff
  case few =>
    intro probed found search
    obtain ⟨rfl, -⟩ := first.search_iff.mp search
    rw [CallbackId.length_round]
    exact Nat.succ_le_succ few
  case nonzero =>
    intro probed found search zero
    obtain ⟨rfl, -⟩ := first.search_iff.mp search
    obtain ⟨j, -, same⟩ := CallbackId.mem_round.mp zero
    exact CallbackId.iterate_next_ne_none started j same
  case registered => exact register?_of_firstFree first few call

/-- The last id of the cycle comes next, but it is taken, and so is the first one. -/
def crowded : PendingCalls Nat :=
  { waiting := [(⟨1⟩, 10), (⟨18446744073709551615⟩, 20), (⟨3⟩, 30)]
    nextId := ⟨18446744073709551615⟩ }

theorem first_free_id_is_given_crowded :
    crowded.nextId ≠ .none ∧ (∃ id, id ≠ .none ∧ crowded.find? id = none) ∧
      (∃ k id, FirstFit crowded 40 k id) ∧ crowded.register? 40 =
        some (⟨2⟩, { waiting := (⟨2⟩, 40) :: crowded.waiting, nextId := ⟨3⟩ }) :=
  have room : ∃ id, id ≠ .none ∧ crowded.find? id = none := ⟨⟨2⟩, by decide, by decide⟩
  ⟨by decide, room, first_free_id_is_given (by decide) room 40, by decide⟩

end PendingCalls

end DuplexRpc
