import DuplexRpc.Envelope
import DuplexRpc.Proofs.Json.RoundTrip

/-!
# Reading back envelopes

An envelope that is written and read again is the same envelope, whatever its names,
texts and callback id are. Only its data must be of the kind that JSON text preserves,
and it must not be null, which a reader takes for no data.
-/

namespace DuplexRpc

/-- Whether data survives being written into an envelope and read again. -/
structure Json.Portable (data : Json) : Prop where
  notNull : data ≠ .null
  canonical : data.Canonical
  exact : data.Exact
  /-- The envelope itself is one more level. -/
  height : data.height ≤ Json.maxDepth - 1

namespace Envelope

open Json

/-! ### Members -/

@[simp] theorem string?_encode (s : String) : string? (.string (StringText.encode s)) = some s :=
  StringText.decode?_encode s

@[simp] theorem members?_cons_encode (name : String) (value : Tree)
    (rest : List (List StringPart × Tree)) :
    members? ((StringText.encode name, value) :: rest) =
      (members? rest).map ((name, value) :: ·) := by
  simp [members?]

@[simp] theorem kind?_word (kind : MessageKind) :
    kind? (.string (StringText.encode kind.word)) = some kind := by
  cases kind <;> simp [kind?, kindOfWord?, MessageKind.word]

@[simp] theorem callbackId?_ofInt (id : CallbackId) :
    callbackId? (.number (.ofInt (id.value.toNat : Int))) = some id := by
  have bound : (id.value.toNat : Int) < 18446744073709551616 := by
    have := id.value.toNat_lt
    omega
  simp [callbackId?, integer?_ofInt, bound]

theorem data?_toTree {data : Json} (h : data.Portable) :
    data? data.toTree = some (some data) := by
  have read := ofTree?_toTree h.canonical h.exact h.height
  cases data with
  | null => exact absurd rfl h.notNull
  | _ =>
      simp only [Json.toTree] at read ⊢
      simp only [data?, read, Option.map_some]

@[simp] theorem error?_errorTree (e : RemoteError) : error? (errorTree e) = some (some e) := by
  simp [error?, errorTree, textMember, members?, member?, remoteErrorOf?]

/-! ### Whole envelopes -/

/-- Data that an envelope carries can be carried. -/
def Portable (e : Envelope) : Prop := ∀ data ∈ e.data, data.Portable

theorem tidy_textMember (name text : String) :
    Tree.TidyMembers [textMember name text] :=
  ⟨⟨Text.utf8 name, rfl⟩, ⟨Text.utf8 text, rfl⟩, trivial⟩

theorem tidyMembers_append {members more : List (List StringPart × Tree)}
    (h : Tree.TidyMembers members) (hm : Tree.TidyMembers more) :
    Tree.TidyMembers (members ++ more) := by
  induction members with
  | nil => exact hm
  | cons member members ih => exact ⟨h.1, h.2.1, ih h.2.2⟩

theorem tidy_toTree {e : Envelope} (h : e.Portable) : e.toTree.Tidy := by
  change Tree.TidyMembers _
  refine tidyMembers_append (tidyMembers_append (tidyMembers_append (tidyMembers_append
    (tidy_textMember _ _) ?_) ?_) ?_) ?_
  · split
    · trivial
    · exact tidy_textMember _ _
  · exact ⟨⟨Text.utf8 "cb_id", rfl⟩, ⟨_, rfl⟩, trivial⟩
  · cases hd : e.data with
    | none => trivial
    | some data => exact ⟨⟨Text.utf8 "data", rfl⟩, Json.tidy_toTree (h data hd).exact, trivial⟩
  · cases e.error with
    | none => trivial
    | some error =>
        exact ⟨⟨Text.utf8 "error", rfl⟩,
          tidyMembers_append (tidy_textMember _ _) (tidy_textMember _ _), trivial⟩

def members (e : Envelope) : List (String × Tree) :=
  [("type", .string (StringText.encode e.kind.word))] ++
  (if e.procedure.isEmpty then [] else [("procedure", .string (StringText.encode e.procedure))]) ++
  [("cb_id", .number (.ofInt (Int.ofNat e.callbackId.value.toNat)))] ++
  (match e.data with
    | some data => [("data", data.toTree)]
    | none => []) ++
  (match e.error with
    | some error => [("error", errorTree error)]
    | none => [])

theorem toTree_eq (e : Envelope) :
    e.toTree = .object (e.members.map fun (name, value) => (StringText.encode name, value)) := by
  obtain ⟨kind, procedure, id, data, error⟩ := e
  unfold toTree members
  simp only [List.map_append]
  congr
  · split <;> rfl
  · cases data <;> rfl
  · cases error <;> rfl

theorem members?_encode (members : List (String × Tree)) :
    members? (members.map fun (name, value) => (StringText.encode name, value)) =
      some members := by
  induction members with
  | nil => rfl
  | cons member members ih => simp [ih]

theorem member?_type (e : Envelope) :
    member? e.members "type" = some (some (.string (StringText.encode e.kind.word))) := by
  obtain ⟨kind, procedure, id, data, error⟩ := e
  cases data <;> cases error <;> by_cases hp : procedure = "" <;> simp [members, member?, hp]

theorem member?_procedure (e : Envelope) :
    member? e.members "procedure" = some (if e.procedure.isEmpty then none
      else some (.string (StringText.encode e.procedure))) := by
  obtain ⟨kind, procedure, id, data, error⟩ := e
  cases data <;> cases error <;> by_cases hp : procedure = "" <;> simp [members, member?, hp]

theorem member?_callbackId (e : Envelope) :
    member? e.members "cb_id" =
      some (some (.number (.ofInt (Int.ofNat e.callbackId.value.toNat)))) := by
  obtain ⟨kind, procedure, id, data, error⟩ := e
  cases data <;> cases error <;> by_cases hp : procedure = "" <;> simp [members, member?, hp]

theorem member?_data (e : Envelope) :
    member? e.members "data" = some (e.data.map Json.toTree) := by
  obtain ⟨kind, procedure, id, data, error⟩ := e
  cases data <;> cases error <;> by_cases hp : procedure = "" <;> simp [members, member?, hp]

theorem member?_error (e : Envelope) :
    member? e.members "error" = some (e.error.map errorTree) := by
  obtain ⟨kind, procedure, id, data, error⟩ := e
  cases data <;> cases error <;> by_cases hp : procedure = "" <;> simp [members, member?, hp]

theorem ofTree?_toTree {e : Envelope} (h : e.Portable) : ofTree? e.toTree = some e := by
  rw [toTree_eq]
  simp only [ofTree?, members?_encode, member?_type, member?_procedure, member?_callbackId,
    member?_data, member?_error, Option.bind_eq_bind, Option.bind_some]
  obtain ⟨kind, procedure, id, data, error⟩ := e
  have written : ∀ d ∈ data, data? d.toTree = some (some d) := fun d hd => data?_toTree (h d hd)
  by_cases hp : procedure = "" <;> cases data <;> cases error <;> simp_all [ofMembers?]

/-- An envelope is read back from its frame. -/
theorem ofBytes?_toBytes {e : Envelope} (h : e.Portable) : ofBytes? e.toBytes = some e := by
  rw [ofBytes?, toBytes, Tree.ofText?_toText (tidy_toTree h), Option.bind_some, ofTree?_toTree h]

end Envelope

end DuplexRpc
