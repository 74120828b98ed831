import DuplexRpc.Json.Text
import DuplexRpc.Proofs.Json.Tokens

/-!
# Reading back what was written

The tokens of a tree are read as that tree, and the tree of a value as that value, so a
value that is written and read again is the same value. This holds of every value that
has its members in order, is not nested too deeply and contains no floating point
number.
-/

namespace DuplexRpc.Json

/-! ### Trees -/

namespace Tree

open Partial

abbrev readFrom (p : Partial) (tokens : List Token) : Option Partial :=
  tokens.foldlM Partial.read p

mutual

/-- Where a value is expected, the tokens of a tree are read as that tree. -/
theorem readFrom_tokens : ∀ (t : Tree) (places : List Place) (rest : List Token),
    readFrom ⟨.value, places⟩ (t.tokens ++ rest) = readFrom ⟨.afterValue t, places⟩ rest
  | .null, _, _ => rfl
  | .bool _, _, _ => rfl
  | .number _, _, _ => rfl
  | .string _, _, _ => rfl
  | .array [], _, _ => rfl
  | .array (item :: items), places, rest => by
      have first : readFrom ⟨.itemOrEnd, places⟩ (item.tokens ++ moreItemTokens items ++ rest) =
          readFrom ⟨.value, .item [] :: places⟩ (item.tokens ++ moreItemTokens items ++ rest) := by
        cases item <;> rfl
      change readFrom ⟨.itemOrEnd, places⟩ (item.tokens ++ moreItemTokens items ++ rest) = _
      rw [first, List.append_assoc, readFrom_tokens item, readFrom_moreItemTokens items]
      rfl
  | .object [], _, _ => rfl
  | .object ((name, value) :: members), places, rest => by
      change readFrom ⟨.value, .member [] name :: places⟩
        (value.tokens ++ moreMemberTokens members ++ rest) = _
      rw [List.append_assoc, readFrom_tokens value, readFrom_moreMemberTokens members]
      rfl

theorem readFrom_moreItemTokens : ∀ (items done : List Tree) (item : Tree) (places : List Place)
    (rest : List Token),
    readFrom ⟨.afterValue item, .item done :: places⟩ (moreItemTokens items ++ rest) =
      readFrom ⟨.afterValue (.array ((item :: done).reverse ++ items)), places⟩ rest
  | [], done, item, places, rest => by
      rw [List.append_nil]
      rfl
  | next :: items, done, item, places, rest => by
      change readFrom ⟨.value, .item (item :: done) :: places⟩
        (next.tokens ++ moreItemTokens items ++ rest) = _
      rw [List.append_assoc, readFrom_tokens next, readFrom_moreItemTokens items]
      simp

theorem readFrom_moreMemberTokens : ∀ (members done : List (List StringPart × Tree))
    (name : List StringPart) (value : Tree) (places : List Place) (rest : List Token),
    readFrom ⟨.afterValue value, .member done name :: places⟩ (moreMemberTokens members ++ rest) =
      readFrom ⟨.afterValue (.object (((name, value) :: done).reverse ++ members)), places⟩ rest
  | [], done, name, value, places, rest => by
      rw [List.append_nil]
      rfl
  | (next, item) :: members, done, name, value, places, rest => by
      change readFrom ⟨.value, .member ((name, value) :: done) next :: places⟩
        (item.tokens ++ moreMemberTokens members ++ rest) = _
      rw [List.append_assoc, readFrom_tokens item, readFrom_moreMemberTokens members]
      simp

end

/-- A tree is read back from its tokens. -/
theorem ofTokens?_tokens (t : Tree) : ofTokens? t.tokens = some t := by
  have complete : readFrom ⟨.value, []⟩ t.tokens = some ⟨.afterValue t, []⟩ := by
    have := readFrom_tokens t [] []
    rwa [List.append_nil] at this
  change (readFrom ⟨.value, []⟩ t.tokens).bind Partial.result? = some t
  rw [complete]
  rfl

mutual

/-- Whether the numbers and strings of a tree are spelled as a writer spells them. -/
def Tidy : Tree → Prop
  | number value => ∃ n, value = .ofInt n
  | string parts => ∃ bytes : Bytes, parts = bytes.map StringText.encodeByte
  | array items => TidyItems items
  | object members => TidyMembers members
  | _ => True

def TidyItems : List Tree → Prop
  | [] => True
  | item :: rest => Tidy item ∧ TidyItems rest

def TidyMembers : List (List StringPart × Tree) → Prop
  | [] => True
  | (name, value) :: rest =>
    (∃ bytes : Bytes, name = bytes.map StringText.encodeByte) ∧ Tidy value ∧ TidyMembers rest

end

/-- Whether a row of tokens is read back from its text. -/
structure Written (tokens : List Token) : Prop where
  tidy : ∀ t ∈ tokens, t.Tidy
  spaced : Token.Spaced tokens

/-- Whether a row of tokens can also stand behind a number. -/
structure Follows (tokens : List Token) : Prop extends Written tokens where
  ends : EndsNumber (Token.toText tokens)

theorem Written.nil : Written [] := ⟨by simp, trivial⟩

theorem Follows.nil : Follows [] := ⟨.nil, trivial⟩

theorem Written.cons {t : Token} {rest : List Token} (ht : t.Tidy)
    (hn : t.isNumber = true → EndsNumber (Token.toText rest)) (hr : Written rest) :
    Written (t :: rest) := by
  refine ⟨?_, hn, hr.spaced⟩
  rintro u (_ | ⟨_, hu⟩)
  · exact ht
  · exact hr.tidy u hu

/-- A mark ends a number, whatever follows the mark. -/
theorem Follows.mark {t : Token} {rest : List Token} {b : UInt8} (ht : t.Tidy)
    (hs : t.spell = [b]) (hb : EndsNumber [b]) (hn : t.isNumber = false) (hr : Written rest) :
    Follows (t :: rest) := by
  refine ⟨.cons ht (by simp [hn]) hr, ?_⟩
  rw [Token.toText_cons, hs]
  exact hb

mutual

/-- The tokens of a tidy tree are read back, with anything behind them that ends a number. -/
theorem written_tokens : ∀ {t : Tree}, t.Tidy → ∀ {rest : List Token}, Follows rest →
    Written (t.tokens ++ rest)
  | .null, _, _, hr => .cons trivial (by simp [Token.isNumber]) hr.toWritten
  | .bool _, _, _, hr => .cons trivial (by simp [Token.isNumber]) hr.toWritten
  | .number _, ht, _, hr => .cons ht (fun _ => hr.ends) hr.toWritten
  | .string _, ht, _, hr => .cons ht (by simp [Token.isNumber]) hr.toWritten
  | .array [], _, _, hr =>
      .cons trivial (by simp [Token.isNumber])
        (.cons trivial (by simp [Token.isNumber]) hr.toWritten)
  | .array (item :: items), ht, rest, hr => by
      change Written (.beginArray :: (item.tokens ++ moreItemTokens items ++ rest))
      rw [List.append_assoc]
      exact .cons trivial (by simp [Token.isNumber])
        (written_tokens ht.1 (follows_moreItemTokens ht.2 hr.toWritten))
  | .object [], _, _, hr =>
      .cons trivial (by simp [Token.isNumber])
        (.cons trivial (by simp [Token.isNumber]) hr.toWritten)
  | .object ((name, value) :: members), ht, rest, hr => by
      change Written (.beginObject :: .string name :: .nameSeparator ::
        (value.tokens ++ moreMemberTokens members ++ rest))
      rw [List.append_assoc]
      have behind := written_tokens ht.2.1 (follows_moreMemberTokens ht.2.2 hr.toWritten)
      exact .cons trivial (by simp [Token.isNumber]) (.cons ht.1 (by simp [Token.isNumber])
        (.cons trivial (by simp [Token.isNumber]) behind))

theorem follows_moreItemTokens : ∀ {items : List Tree}, TidyItems items → ∀ {rest : List Token},
    Written rest → Follows (moreItemTokens items ++ rest)
  | [], _, _, hr => .mark trivial rfl (by decide) rfl hr
  | item :: items, ht, rest, hr => by
      change Follows (.valueSeparator :: (item.tokens ++ moreItemTokens items ++ rest))
      rw [List.append_assoc]
      exact .mark trivial rfl (by decide) rfl
        (written_tokens ht.1 (follows_moreItemTokens ht.2 hr))

theorem follows_moreMemberTokens : ∀ {members : List (List StringPart × Tree)},
    TidyMembers members → ∀ {rest : List Token}, Written rest →
    Follows (moreMemberTokens members ++ rest)
  | [], _, _, hr => .mark trivial rfl (by decide) rfl hr
  | (name, value) :: members, ht, rest, hr => by
      change Follows (.valueSeparator :: .string name :: .nameSeparator ::
        (value.tokens ++ moreMemberTokens members ++ rest))
      rw [List.append_assoc]
      have behind := written_tokens ht.2.1 (follows_moreMemberTokens ht.2.2 hr)
      exact .mark trivial rfl (by decide) rfl (.cons ht.1 (by simp [Token.isNumber])
        (.cons trivial (by simp [Token.isNumber]) behind))

end

/-- A tidy tree is read back from its text. -/
theorem ofText?_toText {t : Tree} (ht : t.Tidy) : ofText? t.toText = some t := by
  have written : Written t.tokens := by
    have := written_tokens ht .nil
    rwa [List.append_nil] at this
  rw [ofText?, toText, Token.ofText?_toText written.tidy written.spaced]
  exact ofTokens?_tokens t

end Tree

/-! ### Values -/

mutual

/-- How deeply arrays and objects are nested in a value. -/
def height : Json → Nat
  | array items => heightOfItems items + 1
  | object members => heightOfMembers members + 1
  | _ => 0

def heightOfItems : List Json → Nat
  | [] => 0
  | item :: rest => max (height item) (heightOfItems rest)

def heightOfMembers : List (String × Json) → Nat
  | [] => 0
  | (_, value) :: rest => max (height value) (heightOfMembers rest)

end

mutual

/-- Whether no floating point number occurs in a value. -/
def Exact : Json → Prop
  | number (.float _) => False
  | array items => ExactItems items
  | object members => ExactMembers members
  | _ => True

def ExactItems : List Json → Prop
  | [] => True
  | item :: rest => Exact item ∧ ExactItems rest

def ExactMembers : List (String × Json) → Prop
  | [] => True
  | (_, value) :: rest => Exact value ∧ ExactMembers rest

end

mutual

theorem tidy_toTree : ∀ {value : Json}, value.Exact → (toTree value).Tidy
  | .null, _ | .bool _, _ => trivial
  | .number (.integer value _), _ => ⟨value, rfl⟩
  | .string value, _ => ⟨Text.utf8 value, rfl⟩
  | .array _, h => tidy_itemTrees h
  | .object _, h => tidy_memberTrees h

theorem tidy_itemTrees : ∀ {items : List Json}, ExactItems items → Tree.TidyItems (itemTrees items)
  | [], _ => trivial
  | _ :: _, h => ⟨tidy_toTree h.1, tidy_itemTrees h.2⟩

theorem tidy_memberTrees : ∀ {members : List (String × Json)}, ExactMembers members →
    Tree.TidyMembers (memberTrees members)
  | [], _ => trivial
  | (name, _) :: _, h => ⟨⟨Text.utf8 name, rfl⟩, tidy_toTree h.1, tidy_memberTrees h.2⟩

end

mutual

/-- A value is what its tree spells, where there is room for it. -/
theorem ofTree?_toTree : ∀ {value : Json}, value.Canonical → value.Exact → ∀ {depth : Nat},
    value.height ≤ depth → ofTree? depth (toTree value) = some value
  | .null, _, _, _, _ => rfl
  | .bool _, _, _, _, _ => rfl
  | .number (.integer _ inRange), _, _, _, _ => by
      simp [toTree, ofTree?, Number.toNumeral, ofNumeral?_ofInt inRange]
  | .string _, _, _, _, _ => by simp [toTree, ofTree?]
  | .array items, hc, he, depth, hd => by
      obtain ⟨depth, rfl⟩ : ∃ n, depth = n + 1 := ⟨depth - 1, by simp only [height] at hd; omega⟩
      have := ofItems?_itemTrees hc he (Nat.le_of_succ_le_succ hd)
      simp [toTree, ofTree?, this]
  | .object members, hc, he, depth, hd => by
      obtain ⟨depth, rfl⟩ : ∃ n, depth = n + 1 := ⟨depth - 1, by simp only [height] at hd; omega⟩
      have := ofMembers?_memberTrees hc.2 he (Nat.le_of_succ_le_succ hd)
      simp [toTree, ofTree?, this, ofTable, Table.entries_ofList hc.1]

theorem ofItems?_itemTrees : ∀ {items : List Json}, CanonicalItems items → ExactItems items →
    ∀ {depth : Nat}, heightOfItems items ≤ depth → ofItems? depth (itemTrees items) = some items
  | [], _, _, _, _ => rfl
  | item :: rest, hc, he, depth, hd => by
      simp only [heightOfItems, Nat.max_le] at hd
      simp [itemTrees, ofItems?, ofTree?_toTree hc.1 he.1 hd.1, ofItems?_itemTrees hc.2 he.2 hd.2]

theorem ofMembers?_memberTrees : ∀ {members : List (String × Json)}, CanonicalMembers members →
    ExactMembers members → ∀ {depth : Nat}, heightOfMembers members ≤ depth →
    ofMembers? depth (memberTrees members) = some members
  | [], _, _, _, _ => rfl
  | (name, value) :: rest, hc, he, depth, hd => by
      simp only [heightOfMembers, Nat.max_le] at hd
      simp [memberTrees, ofMembers?, ofTree?_toTree hc.1 he.1 hd.1,
        ofMembers?_memberTrees hc.2 he.2 hd.2]

end

end DuplexRpc.Json
