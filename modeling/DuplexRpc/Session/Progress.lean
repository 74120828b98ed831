import DuplexRpc.Session
import DuplexRpc.Values.Shape

/-!
# Progress reports

The message by which a long operation tells how far it has come, and the session of
the side that receives it.
-/

namespace DuplexRpc

/-- How much of an operation is done. -/
structure Progress where
  percent : UInt8
  deriving DecidableEq, Repr

namespace Progress

def fields : List (String × Shape) := [("percent", .int .u8)]

def ofValues (v : Values) : Except ReadError Progress := do
  v.checkRecord fields
  let percent : Int ← v.get "percent" (.int .u8)
  return ⟨UInt8.ofNat percent.toNat⟩

def toJson (p : Progress) : Json :=
  .ofInt p.percent.toNat (by have := p.percent.toNat_lt; omega)

def toValues (p : Progress) : Values := Values.empty.insert "percent" p.toJson

def session {σ : Type} : Session σ where
  handle _ state procedure args :=
    let outcome : Outcome :=
      if procedure.name = "progress" then
        match ofValues args with
        | .ok _ => .returned .empty
        | .error e => .failed e.message
      else Session.notImplemented procedure
    { state, requests := [], outcome }

end Progress

end DuplexRpc
