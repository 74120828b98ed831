/-!
# Tables keyed by names

A table keeps its entries in strictly ascending key order. Two tables that answer
every look-up alike are therefore equal, and a listing never depends on the order
in which the entries arrived.

Key order is the order of code points, which for UTF-8 is also the order of bytes.
-/

namespace DuplexRpc

/-- Finitely many entries, listed by strictly ascending key. -/
structure Table (α : Type) where
  entries : List (String × α)
  ascending : entries.Pairwise (fun a b => a.1 < b.1)

namespace Table

variable {α β : Type}

instance [DecidableEq α] : DecidableEq (Table α) := fun s t =>
  match s, t with
  | ⟨xs, _⟩, ⟨ys, _⟩ =>
    if h : xs = ys then .isTrue (by subst h; rfl) else .isFalse (fun e => h (congrArg entries e))

/-- Put an entry at its place in a listing, over an entry of the same key if there is one. -/
def insertSorted (key : String) (value : α) : List (String × α) → List (String × α)
  | [] => [(key, value)]
  | (k, v) :: rest =>
    if key < k then (key, value) :: (k, v) :: rest
    else if k < key then (k, v) :: insertSorted key value rest
    else (key, value) :: rest

theorem mem_insertSorted {key : String} {value : α} {entry : String × α}
    {l : List (String × α)} (h : entry ∈ insertSorted key value l) :
    entry = (key, value) ∨ entry ∈ l := by
  induction l with
  | nil => simpa [insertSorted] using h
  | cons head rest ih =>
    obtain ⟨k, v⟩ := head
    rw [insertSorted] at h
    split at h
    · simpa using h
    · split at h
      · rcases List.mem_cons.mp h with h | h
        · exact .inr (h ▸ List.mem_cons_self)
        · exact (ih h).imp id (List.mem_cons_of_mem _)
      · rcases List.mem_cons.mp h with h | h
        · exact .inl h
        · exact .inr (List.mem_cons_of_mem _ h)

/-- Of two keys neither of which comes before the other, both are the same key. -/
theorem eq_of_not_lt {a b : String} (h₁ : ¬ a < b) (h₂ : ¬ b < a) : a = b :=
  String.le_antisymm (String.not_lt.mp h₂) (String.not_lt.mp h₁)

theorem ascending_insertSorted (key : String) (value : α) {l : List (String × α)}
    (h : l.Pairwise (fun a b => a.1 < b.1)) :
    (insertSorted key value l).Pairwise (fun a b => a.1 < b.1) := by
  induction l with
  | nil => simp [insertSorted]
  | cons head rest ih =>
    obtain ⟨k, v⟩ := head
    obtain ⟨first, later⟩ := List.pairwise_cons.mp h
    rw [insertSorted]
    split
    next before =>
      refine List.pairwise_cons.mpr ⟨fun e he => ?_, h⟩
      rcases List.mem_cons.mp he with rfl | he
      · exact before
      · exact String.lt_trans before (first e he)
    next notBefore =>
      split
      next after =>
        refine List.pairwise_cons.mpr ⟨fun e he => ?_, ih later⟩
        rcases mem_insertSorted he with rfl | he
        · exact after
        · exact first e he
      next notAfter =>
        have same : key = k := eq_of_not_lt notBefore notAfter
        exact List.pairwise_cons.mpr ⟨fun e he => same ▸ first e he, later⟩

def empty : Table α := ⟨[], .nil⟩

instance : Inhabited (Table α) := ⟨empty⟩

def find? (t : Table α) (key : String) : Option α := t.entries.lookup key

def contains (t : Table α) (key : String) : Bool := (t.find? key).isSome

/-- Set the value under a key, whether or not it had one. -/
def insert (t : Table α) (key : String) (value : α) : Table α :=
  ⟨insertSorted key value t.entries, ascending_insertSorted key value t.ascending⟩

def erase (t : Table α) (key : String) : Table α :=
  ⟨t.entries.filter (·.1 != key), t.ascending.filter _⟩

/-- Enter a listing from front to back, so that the last of several values of one key stays. -/
def ofList (l : List (String × α)) : Table α :=
  l.foldl (fun t entry => t.insert entry.1 entry.2) empty

def toList (t : Table α) : List (String × α) := t.entries

def keys (t : Table α) : List String := t.entries.map (·.1)

def size (t : Table α) : Nat := t.entries.length

@[simp] theorem find?_empty (key : String) : (empty : Table α).find? key = none := rfl

@[simp] theorem keys_empty : (empty : Table α).keys = [] := rfl

/-- Looking up in a listing compares with its first key before it goes on. -/
theorem lookup_cons_ite (key k : String) (v : α) (rest : List (String × α)) :
    ((k, v) :: rest).lookup key = if key = k then some v else rest.lookup key := by
  by_cases h : key = k
  · simp [h]
  · simp [List.lookup_cons, h, beq_eq_false_iff_ne.mpr h]

theorem lookup_insertSorted (key : String) (value : α) (l : List (String × α)) (other : String) :
    (insertSorted key value l).lookup other =
      if other = key then some value else l.lookup other := by
  induction l with
  | nil =>
    by_cases h : other = key <;> simp [insertSorted, lookup_cons_ite, h]
  | cons head rest ih =>
    obtain ⟨k, v⟩ := head
    rw [insertSorted]
    split
    · by_cases h : other = key <;> simp [lookup_cons_ite, h]
    next notBefore =>
      split
      next after =>
        by_cases h : other = key
        · subst h
          have : ¬ other = k := fun e => String.lt_irrefl k (e ▸ after)
          simp [lookup_cons_ite, this, ih]
        · by_cases hk : other = k
          · subst hk
            simp [h]
          · simp [lookup_cons_ite, h, hk, ih]
      next notAfter =>
        have same : key = k := eq_of_not_lt notBefore notAfter
        subst same
        by_cases h : other = key <;> simp [lookup_cons_ite, h]

@[simp] theorem find?_insert (t : Table α) (key : String) (value : α) (other : String) :
    (t.insert key value).find? other = if other = key then some value else t.find? other :=
  lookup_insertSorted key value t.entries other

theorem lookup_filter_ne (key other : String) (l : List (String × α)) :
    (l.filter (·.1 != key)).lookup other = if other = key then none else l.lookup other := by
  induction l with
  | nil => simp
  | cons head rest ih =>
    obtain ⟨k, v⟩ := head
    by_cases hk : k = key
    · subst hk
      rw [List.filter_cons_of_neg (by simp), ih, lookup_cons_ite]
      split <;> rfl
    · by_cases ho : other = k
      · subst ho
        simp [hk]
      · simp [lookup_cons_ite, hk, ho, ih]

@[simp] theorem find?_erase (t : Table α) (key other : String) :
    (t.erase key).find? other = if other = key then none else t.find? other :=
  lookup_filter_ne key other t.entries

/-- A look-up finds exactly the entries that are listed. -/
theorem find?_eq_some_iff {t : Table α} {key : String} {value : α} :
    t.find? key = some value ↔ (key, value) ∈ t.entries := by
  obtain ⟨l, h⟩ := t
  simp only [find?]
  induction l with
  | nil => simp
  | cons head rest ih =>
    obtain ⟨k, v⟩ := head
    obtain ⟨first, later⟩ := List.pairwise_cons.mp h
    by_cases hk : key = k
    · subst hk
      have absent : (key, value) ∉ rest := fun m => String.lt_irrefl key (first _ m)
      simp [absent, eq_comm]
    · simp [lookup_cons_ite, hk, ih later]

/-- Equal answers to every look-up make equal tables. -/
theorem ext {s t : Table α} (h : ∀ key, s.find? key = t.find? key) : s = t := by
  obtain ⟨xs, hx⟩ := s
  obtain ⟨ys, hy⟩ := t
  have members : ∀ e, e ∈ xs ↔ e ∈ ys := fun e => by
    rw [show e ∈ xs ↔ _ from (find?_eq_some_iff (t := ⟨xs, hx⟩)).symm,
      show e ∈ ys ↔ _ from (find?_eq_some_iff (t := ⟨ys, hy⟩)).symm, h]
  suffices xs = ys by subst this; rfl
  clear h
  induction xs generalizing ys with
  | nil =>
    cases ys with
    | nil => rfl
    | cons y _ => exact absurd ((members y).mpr List.mem_cons_self) (by simp)
  | cons x xs ih =>
    cases ys with
    | nil => exact absurd ((members x).mp List.mem_cons_self) (by simp)
    | cons y ys =>
      obtain ⟨firstX, laterX⟩ := List.pairwise_cons.mp hx
      obtain ⟨firstY, laterY⟩ := List.pairwise_cons.mp hy
      have heads : x = y := by
        rcases List.mem_cons.mp ((members x).mp List.mem_cons_self) with e | inY
        · exact e
        rcases List.mem_cons.mp ((members y).mpr List.mem_cons_self) with e | inX
        · exact e.symm
        exact absurd (firstY x inY) (String.lt_asymm (firstX y inX))
      subst heads
      have tails : xs = ys := by
        refine ih laterX ys laterY fun e => ⟨fun m => ?_, fun m => ?_⟩
        · rcases List.mem_cons.mp ((members e).mp (List.mem_cons_of_mem _ m)) with rfl | r
          · exact absurd (firstX e m) (String.lt_irrefl _)
          · exact r
        · rcases List.mem_cons.mp ((members e).mpr (List.mem_cons_of_mem _ m)) with rfl | r
          · exact absurd (firstY e m) (String.lt_irrefl _)
          · exact r
      rw [tails]

theorem insertSorted_of_forall_lt {key : String} {value : α} {l : List (String × α)}
    (h : ∀ entry ∈ l, entry.1 < key) : insertSorted key value l = l ++ [(key, value)] := by
  induction l with
  | nil => rfl
  | cons head rest ih =>
    obtain ⟨k, v⟩ := head
    have first : k < key := h (k, v) List.mem_cons_self
    rw [insertSorted, if_neg (String.lt_asymm first), if_pos first,
      ih fun entry m => h entry (List.mem_cons_of_mem _ m), List.cons_append]

theorem entries_foldl_insert (t : Table α) {l : List (String × α)}
    (h : (t.entries ++ l).Pairwise (fun a b => a.1 < b.1)) :
    (l.foldl (fun t entry => t.insert entry.1 entry.2) t).entries = t.entries ++ l := by
  induction l generalizing t with
  | nil => simp
  | cons head rest ih =>
    have greater : ∀ entry ∈ t.entries, entry.1 < head.1 := fun entry m =>
      (List.pairwise_append.mp h).2.2 entry m head List.mem_cons_self
    have inserted : (t.insert head.1 head.2).entries = t.entries ++ [head] :=
      insertSorted_of_forall_lt greater
    have later := ih (t.insert head.1 head.2) (by simpa [inserted] using h)
    rw [List.foldl_cons, later, inserted, List.append_assoc, List.singleton_append]

/-- Entering a listing that is in order gives the table with that listing. -/
theorem entries_ofList {l : List (String × α)} (h : l.Pairwise (fun a b => a.1 < b.1)) :
    (ofList l).entries = l :=
  entries_foldl_insert empty h

theorem mem_keys_iff {t : Table α} {key : String} : key ∈ t.keys ↔ (t.find? key).isSome := by
  simp only [keys, List.mem_map, Option.isSome_iff_exists, find?_eq_some_iff]
  exact ⟨fun ⟨e, m, h⟩ => ⟨e.2, h ▸ m⟩, fun ⟨v, m⟩ => ⟨(key, v), m, rfl⟩⟩

end Table

end DuplexRpc
