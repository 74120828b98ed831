import DuplexRpc.Proofs.Definition.Language
import Mathlib.Data.List.Pairwise
import Mathlib.Data.List.Perm.Basic

/-!
# The order of lines

What the lines of a definition declare does not depend on where they stand. Their order matters
only in that a type is declared before the types that refer to it, and in the line numbers of the
procedures. So lines may be moved about as long as types stay behind the types they refer to.
-/

namespace DuplexRpc

open Grammar Statement

namespace Grammar

/-- Every type statement stands behind the statements that declare the types it refers to. -/
def DeclaredFirst (body : List (List Char)) : Prop :=
  ∀ earlier line later, body = earlier ++ line :: later → ∀ name expr, SpellsType line name expr →
    ∀ target ∈ targets expr, ∀ other ∈ body, ∀ otherExpr, SpellsType other target otherExpr →
      other ∈ earlier

/-- The order of lines can be told by reading them. -/
theorem declaredFirst_of_read {body : List (List Char)}
    (h : ∀ i, (inside : i < body.length) →
      ∀ target ∈ ((typeLine? body[i]).map fun read => targets read.2).getD [],
        ∀ other ∈ body, (typeLine? other).map Prod.fst = some target → other ∈ body.take i) :
    DeclaredFirst body := by
  rintro earlier line later rfl name expr spelled target listed other inside otherExpr declares
  have here := h earlier.length (by simp) target
  rw [List.getElem_append_right (Nat.le_refl _), List.take_left] at here
  refine here ?_ other inside ?_
  · simpa [typeLine?_of_spells spelled] using listed
  · rw [typeLine?_of_spells declares, Option.map_some]

end Grammar

/-- The services agree in everything but the lines of their procedures. -/
structure Service.SameButLines (s t : Service) : Prop where
  name : t.name = s.name
  keys : ∀ side, (t.procedures side).keys = (s.procedures side).keys
  procedures : ∀ {side key p q}, (s.procedures side).find? key = some p →
    (t.procedures side).find? key = some q → { q with line := p.line } = p
  types : t.types = s.types

/-- Tables that have values under the same keys list the same keys. -/
theorem Table.keys_eq_of_find? {α : Type} {s t : Table α}
    (h : ∀ key, (s.find? key).isSome ↔ (t.find? key).isSome) : s.keys = t.keys := by
  have ascending : ∀ t : Table α, t.keys.Pairwise (· < ·) := by
    intro t
    rw [keys, List.pairwise_map]
    exact t.ascending
  have distinct : ∀ t : Table α, t.keys.Nodup := by
    intro t
    refine (ascending t).imp ?_
    rintro key _ before rfl
    exact String.lt_irrefl key before
  refine List.Perm.eq_of_pairwise ?_ (ascending s) (ascending t) ?_
  · intro a b _ _ before behind
    exact absurd behind (String.lt_asymm before)
  · rw [List.perm_ext_iff_of_nodup (distinct s) (distinct t)]
    intro key
    rw [mem_keys_iff, mem_keys_iff, h]

namespace Grammar

variable {body other : List Line} {name : String}

/-- Lines that are moved stay valid if types stay behind the types they refer to. -/
theorem Valid.of_perm (h : Valid body) (perm : body.Perm other)
    (declared : ∀ earlier name expr later, other = earlier ++ .type name expr :: later →
      ∀ target ∈ targets expr, Known earlier target) : Valid other where
  procedure := fun p hp => h.procedure p (perm.mem_iff.mpr hp)
  distinctProcedures := fun side => (perm.filterMap _).nodup_iff.mp (h.distinctProcedures side)
  distinctTypes := (perm.filterMap _).nodup_iff.mp h.distinctTypes
  notBuiltin := fun b listed => h.notBuiltin b ((perm.filterMap _).mem_iff.mpr listed)
  notStruct := fun name listed => h.notStruct name (perm.mem_iff.mpr listed)
  declared := declared

/-- In a valid body there is one procedure of a name at most for a side. -/
theorem Valid.eq_of_name (h : Valid body) {p q : ProcedureStatement} (hp : .procedure p ∈ body)
    (hq : .procedure q ∈ body) (side : p.side = q.side) (name : p.name = q.name) : p = q := by
  by_contra different
  have apart := List.pairwise_filterMap.mp (h.distinctProcedures q.side)
  have : Std.Symm fun l m : Line => ∀ b, Line.procedureName? q.side l = some b →
      ∀ b', Line.procedureName? q.side m = some b' → b ≠ b' := by
    refine ⟨fun l m distinct b hb b' hb' same => ?_⟩
    exact distinct b' hb' b hb same.symm
  have distinct := apart.forall hp hq fun same => different (Line.procedure.inj same)
  exact distinct p.name (if_pos side) q.name (if_pos rfl) name

/-- A sequence that is related to another has nothing without a counterpart. -/
theorem exists_mem_of_forall₂ {α β : Type} {r : α → β → Prop} {xs : List α} {ys : List β}
    (h : List.Forall₂ r xs ys) {x : α} (hx : x ∈ xs) : ∃ y ∈ ys, r x y := by
  induction h with
  | nil => cases hx
  | @cons a b xs ys related _ ih =>
      obtain rfl | hx := List.mem_cons.mp hx
      · exact ⟨b, List.mem_cons_self, related⟩
      · obtain ⟨y, hy, related⟩ := ih hx
        exact ⟨y, List.mem_cons_of_mem b hy, related⟩

/-- In lines that stand in order types are declared where they are referred to. -/
theorem DeclaredFirst.known {lines : List (List Char)} (first : DeclaredFirst lines)
    (spelled : List.Forall₂ SpellsLine lines other)
    (trimmed : ∀ line ∈ lines, ∃ raw, Text.trimEnd raw = line)
    (known : ∀ name expr, .type name expr ∈ other → ∀ target ∈ targets expr, Known other target) :
    ∀ earlier name expr later, other = earlier ++ .type name expr :: later →
      ∀ target ∈ targets expr, Known earlier target := by
  rintro earlier name expr later rfl target listed
  obtain builtin | declared := known name expr (by simp) target listed
  · exact .inl builtin
  obtain ⟨targetExpr, there⟩ := mem_typeNames.mp declared
  -- the lines before the statement are those of the declarations before it
  have front := List.forall₂_take_append lines earlier _ spelled
  obtain ⟨line, rest, here, -, behind⟩ :=
    List.forall₂_cons_right_iff.mp (List.forall₂_drop_append lines earlier _ spelled)
  have whole : lines = lines.take earlier.length ++ line :: rest := by
    rw [← behind, List.take_append_drop]
  obtain ⟨declaring, inside, spells⟩ := exists_mem_of_forall₂ spelled.flip there
  have before := first _ line rest whole name expr here.of_type target listed declaring inside
    targetExpr (SpellsLine.of_type spells)
  obtain ⟨l, in_front, reads⟩ := exists_mem_of_forall₂ front before
  obtain ⟨raw, rfl⟩ := trimmed declaring inside
  obtain rfl := rightUnique_spellsLine reads spells
  exact .inr (mem_typeNames.mpr ⟨targetExpr, in_front⟩)

/-- Services that are defined by the same declarations in another order agree in everything but the
lines of their procedures. -/
theorem Defines.sameButLines {s t : Service} (h : Defines ⟨name, body⟩ s)
    (h' : Defines ⟨name, other⟩ t) (valid : Valid body) (perm : body.Perm other) :
    s.SameButLines t where
  name := h'.name.trans h.name.symm
  keys := by
    intro side
    refine Table.keys_eq_of_find? fun key => ?_
    change (t.procedures side).contains key ↔ (s.procedures side).contains key
    rw [h'.contains_iff, h.contains_iff]
    exact (perm.filterMap _).mem_iff.symm
  procedures := by
    intro side key p q found found'
    obtain ⟨i, declared, at_line, rfl, rfl, rfl⟩ := (h.procedures side key p).mp found
    obtain ⟨j, moved, at_line', own, named, rfl⟩ := (h'.procedures _ _ q).mp found'
    have listed := perm.mem_iff.mpr (List.mem_of_getElem? at_line')
    rw [valid.eq_of_name listed (List.mem_of_getElem? at_line) own named]
    rfl
  types := by
    refine Table.ext fun key => Option.ext fun type => ?_
    rw [h'.types, h.types]
    refine and_congr (perm.filterMap _).mem_iff.symm ⟨fun means => ?_, fun means => ?_⟩
    · exact means.of_subset perm.symm.subset
    · exact means.of_subset perm.subset

end Grammar

namespace Service

/-- The lines behind the name line of a definition may be put in any order in which types are
declared before they are referred to. The service is the same but for the lines of its
procedures. -/
theorem order_of_declarations_is_free {text moved : String} {first : List Char}
    {body other : List (List Char)} {s : Service} (parsed : parseText text = .ok s)
    (read : lines text = first :: body) (read_moved : lines moved = first :: other)
    (perm : body.Perm other) (order : DeclaredFirst other) :
    ∃ t, parseText moved = .ok t ∧ s.SameButLines t := by
  obtain ⟨d, spelled, valid, defines⟩ := parseText_eq_ok_iff.mp parsed
  rw [read] at spelled
  cases spelled with
  | @file _ name _ declared first_spelled rest_spelled =>
      obtain ⟨moved_lines, moved_spelled, moved_perm⟩ :=
        List.perm_comp_forall₂ perm.symm rest_spelled
      have trimmed : ∀ line ∈ other, ∃ raw, Text.trimEnd raw = line := by
        intro line listed
        have inside : line ∈ lines moved := read_moved ▸ List.mem_cons_of_mem first listed
        obtain ⟨raw, -, same⟩ := List.mem_map.mp inside
        exact ⟨raw, same⟩
      have known : ∀ name expr, .type name expr ∈ moved_lines → ∀ target ∈ targets expr,
          Known moved_lines target := by
        intro name expr listed target refers
        have known := valid.known (moved_perm.mem_iff.mp listed) target refers
        exact known.imp_right (moved_perm.filterMap _).mem_iff.mpr
      have moved_valid := valid.of_perm moved_perm.symm (order.known moved_spelled trimmed known)
      obtain ⟨t, moved_defines⟩ := moved_valid.exists_defines name
      refine ⟨t, ?_, defines.sameButLines moved_defines valid moved_perm.symm⟩
      refine parseText_eq_ok_iff.mpr ⟨⟨name, moved_lines⟩, ?_, moved_valid, moved_defines⟩
      rw [read_moved]
      exact .file first_spelled moved_spelled

theorem moved_declarations_define_the_same :
    ∃ s t, parseText "name x\ntype a int\n\ntype b []a\nserver f()" = .ok s ∧
      parseText "name x\n\nserver f()\ntype a int\ntype b []a\r\n" = .ok t ∧
        s.SameButLines t := by
  have accepted :
      (parseText "name x\ntype a int\n\ntype b []a\nserver f()").toOption.isSome := by
    decide +kernel
  obtain ⟨s, found⟩ := Option.isSome_iff_exists.mp accepted
  have parsed := eq_ok_of_toOption found
  have order : DeclaredFirst
      ["".toList, "server f()".toList, "type a int".toList, "type b []a".toList] :=
    declaredFirst_of_read (by decide +kernel)
  obtain ⟨t, moved, same⟩ := order_of_declarations_is_free parsed rfl
    (rfl : lines "name x\n\nserver f()\ntype a int\ntype b []a\r\n" = _) (by decide) order
  exact ⟨s, t, parsed, moved, same⟩

end Service

end DuplexRpc
