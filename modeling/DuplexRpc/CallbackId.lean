/-!
# Callback ids

A callback id ties a response to the request it answers. Ids are 64-bit words and
advance around a cycle that leaves out 0, which is what requests without an answer
carry.
-/

namespace DuplexRpc

/-- What a response repeats from its request. -/
structure CallbackId where
  value : UInt64
  deriving DecidableEq, Repr

namespace CallbackId

/-- The id of requests that are not answered. -/
def none : CallbackId := ⟨0⟩

def first : CallbackId := ⟨1⟩

/-- The next id of the cycle; the greatest word is followed by 1. -/
def next (id : CallbackId) : CallbackId := ⟨max (id.value + 1) 1⟩

theorem toNat_next (id : CallbackId) :
    id.next.value.toNat = if id.value.toNat = UInt64.size - 1 then 1 else id.value.toNat + 1 := by
  have bound := id.value.toNat_lt_size
  have sum : (id.value + 1).toNat = (id.value.toNat + 1) % UInt64.size := UInt64.toNat_add _ _
  have order : id.value + 1 ≤ 1 ↔ (id.value + 1).toNat ≤ 1 := UInt64.le_iff_toNat_le
  simp only [UInt64.size] at bound sum
  simp only [next, max, UInt64.size]
  by_cases last : id.value.toNat = 18446744073709551616 - 1
  · rw [if_pos last]
    split
    · rfl
    next notLe => exact absurd (order.mpr (by omega)) notLe
  · rw [if_neg last]
    split
    next le =>
      have := order.mp le
      have one : (1 : UInt64).toNat = 1 := rfl
      omega
    · omega

theorem next_ne_none (id : CallbackId) : id.next ≠ none := by
  intro h
  have zero : id.next.value.toNat = 0 := congrArg (·.value.toNat) h
  rw [toNat_next] at zero
  split at zero <;> simp at zero

end CallbackId

end DuplexRpc
