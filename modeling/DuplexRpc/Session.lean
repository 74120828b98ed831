import DuplexRpc.Peer

/-!
# Sessions

A session is the application at one end of a connection: a state machine that runs
the procedures of its side, one at a time. While a handler runs it may call procedures
of the other end or ask for the connection to be closed; that takes effect only after
the handler is done.

A handler must not wait for the answer to such a call. The answer could only be read
after the handler, which therefore never returns.
-/

namespace DuplexRpc

/-- What a handler asks of its own connection. -/
inductive Request
  | call (procedure : String) (args : Values)
  | close
  deriving DecidableEq

inductive Outcome
  | returned (values : Values)
  | failed (message : String)
  /-- It waits for an answer that cannot arrive. -/
  | stuck
  deriving DecidableEq

/-- What one run of a handler does: the next state of the session, what it asked for and in which
order, and how it ended. -/
structure Run (σ : Type) where
  state : σ
  requests : List Request
  outcome : Outcome

/-- The application at one end of a connection, with states in `σ`. -/
structure Session (σ : Type) where
  handle : Peer → σ → Procedure → Values → Run σ

namespace Session

variable {σ : Type}

/-- The session of a side that implements no procedures. -/
def idle : Session σ where
  handle _ state procedure _ :=
    { state, requests := [],
      outcome := .failed ("no handler for procedure `" ++ procedure.name ++ "`") }

/-- How a handler fails that is asked for a procedure it does not know. -/
def notImplemented (procedure : Procedure) : Outcome :=
  .failed ("procedure `" ++ procedure.name ++ "` is not implemented")

/-- Call a procedure of the other end from a handler and wait for it: what is asked of the
connection, and how the handler ends unless it can go on. A call that fails its checks asks for
nothing and makes the handler fail, and one that will be answered is waited for in vain. -/
def call (peer : Peer) (procedure : String) (args : Values) : List Request × Option Outcome :=
  match peer.prepare procedure args with
  | .error e => ([], some (.failed e.message))
  | .ok (target, _) => ([.call procedure args], if target.oneway then none else some .stuck)

end Session

end DuplexRpc
