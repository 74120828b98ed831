import DuplexRpc.Definition.Builtin
import DuplexRpc.Table

/-!
# Data types

A data type is builtin or declared under a name. A declared type refers to other
types, which it holds outright: a type never outlives or outgrows what it was
declared over. Names are looked up among the builtin types first, so a declaration
cannot change what a builtin name means.
-/

namespace DuplexRpc

/-- A type as a definition knows it. -/
inductive DataType
  | builtin (type : Builtin)
  | simple (name : String) (target : DataType)
  | slice (name : String) (element : DataType)
  | map (name : String) (key value : DataType)
  | struct (name : String) (fields : List (String × DataType))

inductive Category
  | builtin | simple | slice | map | struct
  deriving DecidableEq, Repr

namespace DataType

mutual

def decEq : (s t : DataType) → Decidable (s = t)
  | .builtin a, .builtin b => decidable_of_iff (a = b) (by simp)
  | .simple m s, .simple n t =>
    have := decEq s t
    decidable_of_iff (m = n ∧ s = t) (by simp)
  | .slice m s, .slice n t =>
    have := decEq s t
    decidable_of_iff (m = n ∧ s = t) (by simp)
  | .map m k v, .map n l w =>
    have := decEq k l
    have := decEq v w
    decidable_of_iff (m = n ∧ k = l ∧ v = w) (by simp)
  | .struct m fs, .struct n gs =>
    have := decEqFields fs gs
    decidable_of_iff (m = n ∧ fs = gs) (by simp)
  | .builtin _, .simple .. | .builtin _, .slice .. | .builtin _, .map .. | .builtin _, .struct ..
  | .simple .., .builtin _ | .simple .., .slice .. | .simple .., .map .. | .simple .., .struct ..
  | .slice .., .builtin _ | .slice .., .simple .. | .slice .., .map .. | .slice .., .struct ..
  | .map .., .builtin _ | .map .., .simple .. | .map .., .slice .. | .map .., .struct ..
  | .struct .., .builtin _ | .struct .., .simple .. | .struct .., .slice .. | .struct .., .map .. =>
    .isFalse (by simp)

def decEqFields : (fs gs : List (String × DataType)) → Decidable (fs = gs)
  | [], [] => .isTrue rfl
  | [], _ :: _ | _ :: _, [] => .isFalse (by simp)
  | (m, s) :: fs, (n, t) :: gs =>
    have := decEq s t
    have := decEqFields fs gs
    decidable_of_iff ((m = n ∧ s = t) ∧ fs = gs) (by simp)

end

instance : DecidableEq DataType := decEq

def name : DataType → String
  | .builtin type => type.name
  | .simple name _ | .slice name _ | .map name _ _ | .struct name _ => name

def category : DataType → Category
  | .builtin _ => .builtin
  | .simple .. => .simple
  | .slice .. => .slice
  | .map .. => .map
  | .struct .. => .struct

/-- The types that a type refers to directly. -/
def referents : DataType → List DataType
  | .builtin _ => []
  | .simple _ target => [target]
  | .slice _ element => [element]
  | .map _ key value => [key, value]
  | .struct _ fields => fields.map (·.2)

/-- The names met when following a type to what it stands for. A map is followed to its values. -/
def chain : DataType → List String
  | .builtin _ | .struct .. => []
  | .simple _ next | .slice _ next | .map _ _ next => next.name :: next.chain

/-- The type that a name means: a builtin type if there is one of that name, else a declared one. -/
def resolve (declared : Table DataType) (name : String) : Option DataType :=
  ((Builtin.ofName? name).map builtin).or (declared.find? name)

theorem resolve_builtin (declared : Table DataType) (b : Builtin) :
    resolve declared b.name = some (builtin b) := by
  simp [resolve]

end DataType

end DuplexRpc
