import DuplexRpc.Proofs.PendingCalls.Search
import DuplexRpc.Proofs.Trace

/-!
# The history of a table of waiting calls

The table forgets a call as soon as it is taken away, and it hands out the same ids again
and again. Its history tells what it has done: which calls were registered under which
ids, and what was taken away. All that the table does follows from its history in the
same way. A call waits under an id if it was registered there and nothing has been
registered or taken there since.
-/

namespace DuplexRpc.PendingCalls

variable {α : Type}

inductive Operation (α : Type)
  | register (call : α)
  | take (id : CallbackId)
  deriving DecidableEq

inductive Entry (α : Type)
  /-- A call got an id. -/
  | registered (id : CallbackId) (call : α)
  /-- A call was taken away from an id, unless none waited there. -/
  | taken (id : CallbackId) (result : Option α)
  deriving DecidableEq

namespace Entry

def id : Entry α → CallbackId
  | registered id _ | taken id _ => id

@[simp] def registered? : Entry α → Option (CallbackId × α)
  | registered id call => some (id, call)
  | taken _ _ => none

@[simp] def returned? : Entry α → Option (CallbackId × α)
  | registered _ _ => none
  | taken id result => result.map (id, ·)

end Entry

/-- Do one thing. Without a free id nothing comes of it. -/
def perform (p : PendingCalls α) : Operation α → Option (Entry α × PendingCalls α)
  | .register call => (p.register? call).map fun (id, q) => (.registered id call, q)
  | .take id =>
    match p.take id with
    | some (call, q) => some (.taken id (some call), q)
    | none => some (.taken id none, p)

def performAll (p : PendingCalls α) : List (Operation α) → Option (List (Entry α) × PendingCalls α)
  | [] => some ([], p)
  | operation :: rest =>
    match p.perform operation with
    | none => none
    | some (entry, q) => (q.performAll rest).map fun (entries, r) => (entry :: entries, r)

/-- Whenever a call is to be registered, fewer calls wait than there are ids. -/
def Roomy (p : PendingCalls α) : List (Operation α) → Prop
  | [] => True
  | operation :: rest =>
    (∀ call, operation = .register call → p.waiting.length < 2 ^ 64 - 1) ∧
      ∀ entry q, p.perform operation = some (entry, q) → q.Roomy rest

/-- A call was registered under an id, and nothing has been registered or taken there since. -/
def Outstanding (history : List (Entry α)) (id : CallbackId) (call : α) : Prop :=
  ∃ earlier later, history = earlier ++ .registered id call :: later ∧
    ∀ entry ∈ later, entry.id ≠ id

/-- What may come next in a history. -/
def Lawful (earlier : List (Entry α)) : Entry α → Prop
  -- An id is given to a call only if no other call waits there.
  | .registered id _ => id ≠ .none ∧ ∀ other, ¬ Outstanding earlier id other
  -- What is taken away from an id is the call that waits there.
  | .taken id result => ∀ call, result = some call ↔ Outstanding earlier id call

/-- A table hands out tickets that are good for one call, given what it has done so far. -/
structure OneShot (history : List (Entry α)) (p : PendingCalls α) : Prop where
  lawful : ∀ {earlier entry later}, history = earlier ++ entry :: later → Lawful earlier entry
  /-- The calls that wait are those that are outstanding. -/
  waits : ∀ {id call}, p.find? id = some call ↔ Outstanding history id call
  /-- Every call that was registered waits or has been returned, and it has been returned once. -/
  accounts : (history.filterMap Entry.returned? ++ p.waiting).Perm
    (history.filterMap Entry.registered?)
  /-- No two calls wait under one id. -/
  distinct : (p.waiting.map (·.1)).Nodup
  /-- No call waits under 0, and 0 is not tried. -/
  unkeyed : .none ∉ p.waiting.map (·.1)
  untried : p.nextId ≠ .none
  /-- A call that is registered gets an id of its own, and nothing happens to the others. -/
  register : ∀ {call id q}, p.register? call = some (id, q) →
    id ≠ .none ∧ p.find? id = none ∧
      ∀ other, q.find? other = if other = id then some call else p.find? other
  /-- A call that is outstanding is returned when it is asked for, and the others stay. -/
  take : ∀ {id call}, Outstanding history id call ↔ ∃ q, p.take id = some (call, q) ∧
    ∀ other, q.find? other = if other = id then none else p.find? other

/-! ### Outstanding calls -/

section

variable {history : List (Entry α)} {id other : CallbackId} {call waiter : α}

theorem not_outstanding_nil : ¬ Outstanding [] id call := by
  rintro ⟨earlier, later, split, -⟩
  cases earlier <;> cases split

/-- The last entry of a history decides about its own id and no other. -/
theorem outstanding_snoc {entry : Entry α} : Outstanding (history ++ [entry]) id call ↔
    entry = .registered id call ∨ entry.id ≠ id ∧ Outstanding history id call := by
  constructor
  · rintro ⟨earlier, later, split, unused⟩
    obtain ⟨more, rfl⟩ | ⟨more, rfl, last⟩ := split_append split
    · obtain rfl : later = more ++ [entry] := by simpa using split.symm
      obtain ⟨before, own⟩ := List.forall_mem_append.mp unused
      exact .inr ⟨own entry List.mem_cons_self, earlier, more, rfl, before⟩
    · cases more with
      | nil => exact .inl (List.cons.inj last).1
      | cons first more => simp at last
  · rintro (rfl | ⟨foreign, earlier, later, rfl, unused⟩)
    · exact ⟨history, [], rfl, nofun⟩
    · refine ⟨earlier, later ++ [entry], by simp, List.forall_mem_append.mpr ⟨unused, ?_⟩⟩
      exact List.forall_mem_singleton.mpr foreign

end

/-! ### What one operation does -/

variable {history : List (Entry α)} {p q : PendingCalls α} {id : CallbackId} {call : α}

theorem WellFormed.find?_register? (hp : p.WellFormed) (h : p.register? call = some (id, q)) :
    id ≠ .none ∧ p.find? id = none ∧
      ∀ other, q.find? other = if other = id then some call else p.find? other := by
  obtain ⟨rfl, found⟩ := eq_of_register? h
  refine ⟨freeId?_ne_none hp.nextId found, find?_of_freeId? found, fun other => ?_⟩
  by_cases same : other = id
  · rw [if_pos same, same]
    exact List.lookup_cons_self
  · rw [if_neg same, find?, find?, List.lookup_cons, beq_eq_false_iff_ne.mpr same]

theorem WellFormed.find?_take (hp : p.WellFormed) (h : p.take id = some (call, q))
    (other : CallbackId) : q.find? other = if other = id then none else p.find? other := by
  have hq := hp.take h
  obtain ⟨-, rfl⟩ := eq_of_take h
  refine Option.ext fun waiter => ?_
  rw [hq.find?_eq_some_iff, List.mem_filter, ← hp.find?_eq_some_iff]
  by_cases same : other = id <;> simp [same]

theorem take_eq_none_iff : p.take id = none ↔ p.find? id = none := Option.map_eq_none_iff

theorem exists_take_iff : (∃ q, p.take id = some (call, q)) ↔ p.find? id = some call := by
  constructor
  · rintro ⟨q, h⟩
    exact (eq_of_take h).1
  · intro h
    exact ⟨_, by rw [PendingCalls.take, h, Option.map_some]⟩

inductive Performs (p : PendingCalls α) : Operation α → Entry α → PendingCalls α → Prop
  | registered {q : PendingCalls α} {id : CallbackId} {call : α}
      (h : p.register? call = some (id, q)) : Performs p (.register call) (.registered id call) q
  | taken {q : PendingCalls α} {id : CallbackId} {call : α} (h : p.take id = some (call, q)) :
      Performs p (.take id) (.taken id (some call)) q
  | absent {id : CallbackId} (h : p.take id = none) : Performs p (.take id) (.taken id none) p

theorem performs {operation : Operation α} {entry : Entry α}
    (performed : p.perform operation = some (entry, q)) : Performs p operation entry q := by
  cases operation with
  | register call =>
      obtain ⟨⟨id, r⟩, registered, same⟩ := Option.map_eq_some_iff.mp performed
      obtain ⟨rfl, rfl⟩ := Prod.mk.inj same
      exact .registered registered
  | take id =>
      cases taken : p.take id with
      | none =>
          simp only [perform, taken] at performed
          obtain ⟨rfl, rfl⟩ := Prod.mk.inj (Option.some.inj performed)
          exact .absent taken
      | some result =>
          simp only [perform, taken] at performed
          obtain ⟨rfl, rfl⟩ := Prod.mk.inj (Option.some.inj performed)
          exact .taken taken

/-- A history tells what has become of a table. -/
structure Agrees (history : List (Entry α)) (p : PendingCalls α) : Prop where
  wellFormed : p.WellFormed
  lawful : ∀ {earlier entry later}, history = earlier ++ entry :: later → Lawful earlier entry
  waits : ∀ {id call}, p.find? id = some call ↔ Outstanding history id call
  accounts : (history.filterMap Entry.returned? ++ p.waiting).Perm
    (history.filterMap Entry.registered?)

namespace Agrees

theorem empty : Agrees [] (empty : PendingCalls α) where
  wellFormed := .empty
  lawful := by
    intro earlier entry later split
    cases earlier <;> cases split
  waits := iff_of_false nofun not_outstanding_nil
  accounts := .refl _

theorem not_outstanding (h : Agrees history p) (free : p.find? id = none) (call : α) :
    ¬ Outstanding history id call := by
  intro outstanding
  rw [h.waits.mpr outstanding] at free
  cases free

/-- A history stays lawful as long as each next entry is. -/
theorem lawful_snoc (h : Agrees history p) {last : Entry α} (next : Lawful history last)
    {earlier later : List (Entry α)} {entry : Entry α}
    (split : history ++ [last] = earlier ++ entry :: later) : Lawful earlier entry := by
  obtain ⟨more, old⟩ | ⟨more, rfl, new⟩ := split_append split
  · exact h.lawful old
  · cases more with
    | nil =>
        obtain ⟨rfl, -⟩ := List.cons.inj new
        rwa [List.append_nil]
    | cons first more => simp at new

theorem register (h : Agrees history p) (registered : p.register? call = some (id, q)) :
    Agrees (history ++ [.registered id call]) q := by
  obtain ⟨nonzero, free, found⟩ := h.wellFormed.find?_register? registered
  have law : Lawful history (.registered id call) := ⟨nonzero, h.not_outstanding free⟩
  constructor
  case wellFormed => exact h.wellFormed.register? registered
  case lawful => exact h.lawful_snoc law
  case waits =>
    intro other waiter
    rw [found, outstanding_snoc, ← h.waits]
    by_cases same : other = id
    · simp [same, Entry.id]
    · simp [same, Ne.symm same, Entry.id]
  case accounts =>
    obtain ⟨rfl, -⟩ := eq_of_register? registered
    have grown := (h.accounts.cons (id, call)).trans (List.perm_append_singleton _ _).symm
    simpa [List.filterMap_cons] using List.perm_middle.trans grown

theorem take (h : Agrees history p) (taken : p.take id = some (call, q)) :
    Agrees (history ++ [.taken id (some call)]) q := by
  have found := h.wellFormed.find?_take taken
  have left := h.wellFormed.take taken
  obtain ⟨waits, rfl⟩ := eq_of_take taken
  have law : Lawful history (.taken id (some call)) := by
    intro other
    rw [← h.waits, waits]
  constructor
  case wellFormed => exact left
  case lawful => exact h.lawful_snoc law
  case waits =>
    intro other waiter
    rw [found, outstanding_snoc, ← h.waits]
    by_cases same : other = id
    · simp [same, Entry.id]
    · simp [same, Ne.symm same, Entry.id]
  case accounts =>
    obtain ⟨later, earlier, split⟩ := split_of_find? waits
    have before := h.accounts
    rw [split] at before
    rw [h.wellFormed.filter_waiting split]
    simpa [List.filterMap_cons] using (List.perm_middle.symm.append_left _).trans before

theorem takeNone (h : Agrees history p) (free : p.find? id = none) :
    Agrees (history ++ [.taken id none]) p := by
  have law : Lawful history (.taken id none) :=
    fun other => iff_of_false nofun (h.not_outstanding free other)
  constructor
  case wellFormed => exact h.wellFormed
  case lawful => exact h.lawful_snoc law
  case waits =>
    intro other waiter
    rw [outstanding_snoc, ← h.waits]
    by_cases same : id = other
    · subst same
      simp [free, Entry.id]
    · simp [same, Entry.id]
  case accounts => simpa [List.filterMap_cons] using h.accounts

theorem perform (h : Agrees history p) {operation : Operation α} {entry : Entry α}
    (performed : p.perform operation = some (entry, q)) : Agrees (history ++ [entry]) q := by
  cases performs performed with
  | registered registered => exact h.register registered
  | taken taken => exact h.take taken
  | absent absent => exact h.takeNone (take_eq_none_iff.mp absent)

theorem oneShot (h : Agrees history p) : OneShot history p where
  lawful := h.lawful
  waits := h.waits
  accounts := h.accounts
  distinct := h.wellFormed.distinct
  unkeyed := h.wellFormed.none_notMem
  untried := h.wellFormed.nextId
  register := h.wellFormed.find?_register?
  take := by
    intro id call
    rw [← h.waits, ← exists_take_iff]
    exact ⟨fun ⟨q, taken⟩ => ⟨q, taken, h.wellFormed.find?_take taken⟩,
      fun ⟨q, taken, _⟩ => ⟨q, taken⟩⟩

end Agrees

/-! ### What many operations do -/

/-- An operation fails only if it is to register a call and no id is free. -/
theorem exists_perform (hp : p.WellFormed) {operation : Operation α}
    (few : ∀ call, operation = .register call → p.waiting.length < 2 ^ 64 - 1) :
    ∃ entry q, p.perform operation = some (entry, q) := by
  cases operation with
  | register call =>
      obtain ⟨k, length, first⟩ :=
        exists_firstFree hp.nextId (exists_free_of_few (few call rfl))
      exact ⟨_, _, by rw [perform, register?_of_firstFree first length, Option.map_some]⟩
  | take id =>
      cases taken : p.take id with
      | none => exact ⟨.taken id none, p, by simp only [perform, taken]⟩
      | some result =>
          exact ⟨.taken id (some result.1), result.2, by simp only [perform, taken]⟩

/-- As long as there is room, all operations are done, and the history agrees with what they do. -/
theorem Agrees.performAll (h : Agrees history p) {operations : List (Operation α)}
    (roomy : p.Roomy operations) :
    ∃ entries q, p.performAll operations = some (entries, q) ∧ Agrees (history ++ entries) q := by
  induction operations generalizing history p with
  | nil => exact ⟨[], p, rfl, by rwa [List.append_nil]⟩
  | cons operation rest ih =>
      obtain ⟨few, later⟩ := roomy
      obtain ⟨entry, q, performed⟩ := exists_perform h.wellFormed few
      obtain ⟨entries, r, all, agrees⟩ := ih (h.perform performed) (later entry q performed)
      refine ⟨entry :: entries, r, ?_, ?_⟩
      · simp only [PendingCalls.performAll, performed, all, Option.map_some]
      · rwa [List.append_assoc] at agrees

/-- Every history is lawful. Calls wait under ids of their own, and each is returned at most once,
to whoever asks for the id that it was given. -/
theorem ids_are_good_for_one_call {operations : List (Operation α)}
    (roomy : (empty : PendingCalls α).Roomy operations) :
    ∃ history p, empty.performAll operations = some (history, p) ∧ OneShot history p := by
  obtain ⟨history, p, performed, agrees⟩ := Agrees.empty.performAll roomy
  exact ⟨history, p, performed, agrees.oneShot⟩

theorem length_waiting_perform {operation : Operation α} {entry : Entry α}
    (performed : p.perform operation = some (entry, q)) :
    q.waiting.length ≤ p.waiting.length + 1 := by
  cases performs performed with
  | registered registered =>
      obtain ⟨rfl, -⟩ := eq_of_register? registered
      exact Nat.le_refl _
  | taken taken =>
      obtain ⟨-, rfl⟩ := eq_of_take taken
      exact Nat.le_succ_of_le (List.length_filter_le _ _)
  | absent absent => exact Nat.le_succ _

/-- A sequence with fewer operations than there are ids leaves room all along. -/
theorem roomy_of_length {operations : List (Operation α)}
    (few : p.waiting.length + operations.length < 2 ^ 64 - 1) : p.Roomy operations := by
  induction operations generalizing p with
  | nil => trivial
  | cons operation rest ih =>
      rw [List.length_cons] at few
      refine ⟨fun _ _ => by omega, fun entry q performed => ih ?_⟩
      have grown := length_waiting_perform performed
      omega

/-- An answered call, an answer that comes twice, and a call that goes on waiting. -/
def exchange : List (Operation Nat) :=
  [.register 10, .register 20, .take ⟨1⟩, .take ⟨1⟩, .register 30, .take ⟨3⟩]

theorem ids_are_good_for_one_call_exchange :
    (empty : PendingCalls Nat).Roomy exchange ∧
      (∃ history p, empty.performAll exchange = some (history, p) ∧ OneShot history p) ∧
        empty.performAll exchange = some
          ([.registered ⟨1⟩ 10, .registered ⟨2⟩ 20, .taken ⟨1⟩ (some 10), .taken ⟨1⟩ none,
            .registered ⟨3⟩ 30, .taken ⟨3⟩ (some 30)],
            { waiting := [(⟨2⟩, 20)], nextId := ⟨4⟩ }) :=
  have roomy : (empty : PendingCalls Nat).Roomy exchange := roomy_of_length (by decide)
  ⟨roomy, ids_are_good_for_one_call roomy, by decide⟩

end DuplexRpc.PendingCalls
