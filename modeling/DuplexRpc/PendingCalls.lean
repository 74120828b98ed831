import DuplexRpc.CallbackId

/-!
# Pending calls

Calls that wait for their response, each under the callback id its request carried.
A new call gets the first id that no waiting call has, starting from the one after
the last id given out; ids repeat only after the cycle of ids has come round, and
never while a call still waits under them.
-/

namespace DuplexRpc

/-- The calls of one connection that wait for a response. -/
structure PendingCalls (α : Type) where
  /-- The waiting calls, the latest first. -/
  waiting : List (CallbackId × α)
  /-- The id to try first for the next call. -/
  nextId : CallbackId
  deriving DecidableEq, Repr

namespace PendingCalls

variable {α : Type}

/-- No call is waiting, and ids start with 1. -/
def empty : PendingCalls α := { waiting := [], nextId := .first }

def find? (p : PendingCalls α) (id : CallbackId) : Option α := p.waiting.lookup id

def isFree (p : PendingCalls α) (id : CallbackId) : Bool := (p.find? id).isNone

/-- The first free id among the next `tries` ids of the cycle. -/
def freeId? (p : PendingCalls α) (id : CallbackId) : Nat → Option CallbackId
  | 0 => none
  | tries + 1 => if p.isFree id then some id else p.freeId? id.next tries

/-- Let a call wait under the first free id. One try more than there are waiting calls is enough,
unless every id of the cycle is taken. -/
def register? (p : PendingCalls α) (call : α) : Option (CallbackId × PendingCalls α) :=
  (p.freeId? p.nextId (p.waiting.length + 1)).map fun id =>
    (id, { waiting := (id, call) :: p.waiting, nextId := id.next })

def take (p : PendingCalls α) (id : CallbackId) : Option (α × PendingCalls α) :=
  (p.find? id).map fun call => (call, { p with waiting := p.waiting.filter (·.1 != id) })

/-- An id that is found free has no waiting call. -/
theorem find?_of_freeId? {p : PendingCalls α} {start id : CallbackId} {tries : Nat}
    (h : p.freeId? start tries = some id) : p.find? id = none := by
  induction tries generalizing start with
  | zero => simp [freeId?] at h
  | succ tries ih =>
    rw [freeId?] at h
    split at h
    next free =>
      obtain rfl := Option.some.inj h
      exact Option.isNone_iff_eq_none.mp free
    next => exact ih h

end PendingCalls

end DuplexRpc
