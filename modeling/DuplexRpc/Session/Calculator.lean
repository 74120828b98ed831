import DuplexRpc.Session.Progress

/-!
# The calculator

A session that adds and divides 64-bit integers and takes messages for its log.
Division reports progress to the other end before it answers, half way and when it is
done. It truncates towards zero, and wraps around in the one case whose quotient does
not fit.
-/

namespace DuplexRpc.Calculator

structure Operands where
  a : Int64
  b : Int64
  deriving DecidableEq, Repr

def number (n : Int64) : Json :=
  .ofInt n.toInt (by have := n.le_toInt; have := n.toInt_lt; omega)

def Operands.fields : List (String × Shape) := [("a", .int .i64), ("b", .int .i64)]

def Operands.ofValues (v : Values) : Except ReadError Operands := do
  v.checkRecord fields
  let a : Int ← v.get "a" (.int .i64)
  let b : Int ← v.get "b" (.int .i64)
  return ⟨Int64.ofInt a, Int64.ofInt b⟩

def Operands.toValues (o : Operands) : Values :=
  (Values.empty.insert "a" (number o.a)).insert "b" (number o.b)

def sumValues (c : Int64) : Values := Values.empty.insert "c" (number c)

def quotientValues (quotient remainder : Int64) : Values :=
  (Values.empty.insert "quotient" (number quotient)).insert "remainder" (number remainder)

/-- Add, unless the sum does not fit. -/
def add (o : Operands) : Outcome :=
  let sum := o.a.toInt + o.b.toInt
  if IntType.i64.holds sum then .returned (sumValues (Int64.ofInt sum))
  else .failed "integer overflow"

def report (peer : Peer) (percent : UInt8) : List Request × Option Outcome :=
  Session.call peer "progress" (Progress.toValues ⟨percent⟩)

/-- Divide, with progress reported on the way. -/
def divide (peer : Peer) (o : Operands) : List Request × Outcome :=
  if o.b = 0 then ([], .failed "division by zero")
  else
    match report peer 50 with
    | (first, some ended) => (first, ended)
    | (first, none) =>
      let (second, ended) := report peer 100
      (first ++ second, ended.getD (.returned (quotientValues (o.a / o.b) (o.a % o.b))))

def run (peer : Peer) (procedure : Procedure) (args : Values) : List Request × Outcome :=
  match procedure.name with
  | "log" =>
    match args.get "text" .string with
    | .ok _ => ([], .returned .empty)
    | .error e => ([], .failed e.message)
  | "add" =>
    match Operands.ofValues args with
    | .ok operands => ([], add operands)
    | .error e => ([], .failed e.message)
  | "divide" =>
    match Operands.ofValues args with
    | .ok operands => divide peer operands
    | .error e => ([], .failed e.message)
  | _ => ([], Session.notImplemented procedure)

/-- The session of the calculator, which keeps nothing between calls. -/
def session {σ : Type} : Session σ where
  handle peer state procedure args :=
    let (requests, outcome) := run peer procedure args
    { state, requests, outcome }

end DuplexRpc.Calculator
