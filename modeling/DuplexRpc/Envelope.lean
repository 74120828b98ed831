import DuplexRpc.CallbackId
import DuplexRpc.Json.Text
import DuplexRpc.Values

/-!
# Envelopes

What two ends exchange after the greeting: requests and responses, each a JSON object
of at most five members. A reader takes the members in any order, ignores unknown
ones and refuses a known one that is given twice. It also takes the members as an
array in their usual order, with the last ones left out at will.

Only `type` is required. Null for `data` or `error` means the same as leaving it out.
-/

namespace DuplexRpc

inductive MessageKind
  | request | response
  deriving DecidableEq, Repr

def MessageKind.word : MessageKind → String
  | request => "req"
  | response => "res"

/-- The error that a response reports in place of data. -/
structure RemoteError where
  type : String
  message : String
  deriving DecidableEq, Repr

namespace RemoteError

/-- The error of a procedure whose handler failed. -/
def returned (message : String) : RemoteError := ⟨"errorReturned", message⟩

def display (e : RemoteError) : String := e.type ++ ": " ++ e.message

end RemoteError

structure Envelope where
  kind : MessageKind
  /-- The procedure called; empty in responses. -/
  procedure : String
  callbackId : CallbackId
  data : Option Json
  error : Option RemoteError
  deriving DecidableEq

namespace Envelope

open Json

def request (procedure : String) (callbackId : CallbackId) (args : Values) : Envelope :=
  { kind := .request, procedure, callbackId, data := some args.toJson, error := none }

def response (callbackId : CallbackId) (rets : Values) : Envelope :=
  { kind := .response, procedure := "", callbackId, data := some rets.toJson, error := none }

def errorResponse (callbackId : CallbackId) (error : RemoteError) : Envelope :=
  { kind := .response, procedure := "", callbackId, data := none, error := some error }

/-! ### Reading -/

def string? : Tree → Option String
  | .string parts => StringText.decode? parts
  | _ => none

/-- The members of an object by their decoded names, all of which must be decodable. -/
def members? : List (List StringPart × Tree) → Option (List (String × Tree))
  | [] => some []
  | (name, value) :: rest =>
    match StringText.decode? name with
    | some name => (members? rest).map ((name, value) :: ·)
    | none => none

/-- The member of a name, which may be left out but not given twice. -/
def member? (members : List (String × Tree)) (name : String) : Option (Option Tree) :=
  match members.filter (·.1 == name) with
  | [] => some none
  | [(_, value)] => some (some value)
  | _ => none

def kindOfWord? (word : String) : Option MessageKind :=
  if word = MessageKind.request.word then some .request
  else if word = MessageKind.response.word then some .response
  else none

/-- The kind of an envelope: a word, or an object with null under the word. -/
def kind? : Tree → Option MessageKind
  | .string parts => (StringText.decode? parts).bind kindOfWord?
  | .object [(name, .null)] => (StringText.decode? name).bind kindOfWord?
  | _ => none

/-- A callback id: a whole number of 64 bits, spelled without sign, point and exponent. -/
def callbackId? : Tree → Option CallbackId
  | .number numeral =>
    match numeral.integer? with
    | some value =>
      if 0 ≤ value ∧ value < 1 <<< 64 then some ⟨UInt64.ofNat value.toNat⟩ else none
    | none => none
  | _ => none

/-- The data of an envelope, which is one level deep in its text. -/
def data? : Tree → Option (Option Json)
  | .null => some none
  | tree => (Json.ofTree? (Json.maxDepth - 1) tree).map some

/-- The error with the given members, both of them strings. -/
def remoteErrorOf? (type message : Option Tree) : Option RemoteError := do
  return ⟨← string? (← type), ← string? (← message)⟩

/-- The error of an envelope: an object, or an array of type and message. -/
def error? : Tree → Option (Option RemoteError)
  | .null => some none
  | .object members => do
    let members ← members? members
    some (← remoteErrorOf? (← member? members "type") (← member? members "message"))
  | .array [type, message] => (remoteErrorOf? (some type) (some message)).map some
  | _ => none

def ofMembers? (type procedure cbId data error : Option Tree) : Option Envelope := do
  let kind ← kind? (← type)
  let procedure ← (procedure.map string?).getD (some "")
  let callbackId ← (cbId.map callbackId?).getD (some .none)
  let data ← (data.map data?).getD (some none)
  let error ← (error.map error?).getD (some none)
  return { kind, procedure, callbackId, data, error }

def ofTree? : Tree → Option Envelope
  | .object members => do
    let members ← members? members
    ofMembers? (← member? members "type") (← member? members "procedure")
      (← member? members "cb_id") (← member? members "data") (← member? members "error")
  | .array items =>
    if items.length ≤ 5 then ofMembers? items[0]? items[1]? items[2]? items[3]? items[4]? else none
  | _ => none

def ofBytes? (bytes : Bytes) : Option Envelope := (Tree.ofText? bytes).bind ofTree?

/-! ### Writing -/

def textMember (name text : String) : List StringPart × Tree :=
  (StringText.encode name, .string (StringText.encode text))

def errorTree (e : RemoteError) : Tree :=
  .object [textMember "type" e.type, textMember "message" e.message]

/-- The tree of an envelope. An empty procedure name and absent data and errors are left out. -/
def toTree (e : Envelope) : Tree :=
  .object <|
    [textMember "type" e.kind.word] ++
    (if e.procedure.isEmpty then [] else [textMember "procedure" e.procedure]) ++
    [(StringText.encode "cb_id", .number (.ofInt (Int.ofNat e.callbackId.value.toNat)))] ++
    (match e.data with
      | some data => [(StringText.encode "data", data.toTree)]
      | none => []) ++
    (match e.error with
      | some error => [(StringText.encode "error", errorTree error)]
      | none => [])

def toBytes (e : Envelope) : Bytes := e.toTree.toText

end Envelope

end DuplexRpc
