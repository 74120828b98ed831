import DuplexRpc.Session
import DuplexRpc.Values.Shape

/-!
# Scripted sessions

A script says what each handler does as a list of actions, done in order until one of
them ends the handler. It serves to rehearse a connection without an application.

The state of a scripted session is whether it still holds its peer. Actions that need
the peer are skipped without it.
-/

namespace DuplexRpc

inductive Action
  /-- Call a procedure of the other end and wait for it. -/
  | call (procedure : String) (args : Json)
  /-- Ask for the connection to be closed. -/
  | close
  /-- Give the peer up. -/
  | dropPeer
  /-- Read an argument. -/
  | get (name : String) (shape : Shape)
  /-- Return the arguments. -/
  | echo
  /-- Return the given values. -/
  | returnValues (values : Json)
  /-- Fail with the given message. -/
  | fail (message : String)
  deriving DecidableEq

abbrev Script := Table (List Action)

namespace Script

/-- Do the actions of a handler, after what it has asked for already. -/
def perform (peer : Peer) (args : Values) (holdsPeer : Bool) (requests : List Request) :
    List Action → Run Bool
  | [] => ⟨holdsPeer, requests, .returned .empty⟩
  | .call name data :: rest =>
    match Values.ofJson? data with
    | none => ⟨holdsPeer, requests, .failed Values.notNamed⟩
    | some values =>
      if holdsPeer then
        match Session.call peer name values with
        | (made, none) => perform peer args holdsPeer (requests ++ made) rest
        | (made, some ended) => ⟨holdsPeer, requests ++ made, ended⟩
      else perform peer args holdsPeer requests rest
  | .close :: rest =>
    perform peer args holdsPeer (if holdsPeer then requests ++ [.close] else requests) rest
  | .dropPeer :: rest => perform peer args false requests rest
  | .get name shape :: rest =>
    match args.get name shape with
    | .ok _ => perform peer args holdsPeer requests rest
    | .error e => ⟨holdsPeer, requests, .failed e.message⟩
  | .echo :: _ => ⟨holdsPeer, requests, .returned args⟩
  | .returnValues data :: _ =>
    match Values.ofJson? data with
    | some values => ⟨holdsPeer, requests, .returned values⟩
    | none => ⟨holdsPeer, requests, .failed Values.notNamed⟩
  | .fail message :: _ => ⟨holdsPeer, requests, .failed message⟩

/-- The session of a script; procedures that it does not mention have no handler. -/
def session (script : Script) : Session Bool where
  handle peer holdsPeer procedure args :=
    match script.find? procedure.name with
    | some actions => perform peer args holdsPeer [] actions
    | none => Session.idle.handle peer holdsPeer procedure args

end Script

end DuplexRpc
