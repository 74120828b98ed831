import DuplexRpc.Definition.Parse
import DuplexRpc.Proofs.Payload

/-!
# What parsing guarantees

A service that comes out of the parser is in order: each procedure is listed under its
own name and at its own side, and its parameters have distinct names and builtin types.
Every line keeps a service in order, so a definition of any length does.
-/

namespace DuplexRpc

/-- What a definition guarantees of a procedure. -/
structure Procedure.WellFormed (p : Procedure) : Prop where
  args : Param.WellFormed p.args
  rets : Param.WellFormed p.rets
  oneway : p.oneway = true → p.rets = []

/-- What a definition guarantees of a service. -/
structure Service.WellFormed (s : Service) : Prop where
  name : ∀ {side name p}, (s.procedures side).find? name = some p → p.name = name
  side : ∀ {side name p}, (s.procedures side).find? name = some p → p.side = side
  procedure : ∀ {side name p}, (s.procedures side).find? name = some p → p.WellFormed

/-! ### Results -/

section

variable {ε α β : Type}

/-- A sequence succeeds when both of its parts do. -/
theorem bind_eq_ok {x : Except ε α} {f : α → Except ε β} {b : β} :
    x >>= f = .ok b ↔ ∃ a, x = .ok a ∧ f a = .ok b := by
  cases x with
  | error e => exact ⟨nofun, nofun⟩
  | ok a => exact ⟨fun h => ⟨a, rfl, h⟩, fun ⟨_, rfl, h⟩ => h⟩

theorem eq_ok_of_toOption {x : Except ε α} {a : α} (h : x.toOption = some a) : x = .ok a := by
  cases x with
  | error e => cases h
  | ok b => exact congrArg Except.ok (Option.some.inj h)

/-- A sequence fails where its first failing part does. -/
theorem bind_eq_error {x : Except ε α} {f : α → Except ε β} {e : ε} :
    x >>= f = .error e ↔ x = .error e ∨ ∃ a, x = .ok a ∧ f a = .error e := by
  cases x with
  | error d =>
      refine ⟨fun h => .inl ?_, ?_⟩
      · exact congrArg Except.error (Except.error.inj h)
      · rintro (h | ⟨_, h, _⟩)
        · exact congrArg Except.error (Except.error.inj h)
        · cases h
  | ok a => exact ⟨fun h => .inr ⟨a, rfl, h⟩, fun | .inr ⟨_, rfl, h⟩ => h⟩

/-- A guard is passed by what comes behind it. -/
theorem guard_eq_ok {c : Prop} [Decidable c] {e : ε} {f : PUnit → Except ε α} {a : α} :
    (if c then throw e >>= f else f ⟨⟩) = .ok a ↔ ¬ c ∧ f ⟨⟩ = .ok a := by
  by_cases hc : c
  · rw [if_pos hc]
    exact ⟨nofun, fun h => absurd hc h.1⟩
  · rw [if_neg hc]
    exact ⟨fun h => ⟨hc, h⟩, fun h => h.2⟩

/-- A guard fails with a fault of its own or lets that of what comes behind it through. -/
theorem guard_eq_error {c : Prop} [Decidable c] {d e : ε} {f : PUnit → Except ε α} :
    (if c then throw d >>= f else f ⟨⟩) = .error e ↔ c ∧ d = e ∨ ¬ c ∧ f ⟨⟩ = .error e := by
  by_cases hc : c
  · rw [if_pos hc]
    exact ⟨fun h => .inl ⟨hc, Except.error.inj h⟩, fun
      | .inl ⟨_, h⟩ => congrArg Except.error h
      | .inr ⟨h, _⟩ => absurd hc h⟩
  · rw [if_neg hc]
    exact ⟨fun h => .inr ⟨hc, h⟩, fun
      | .inl ⟨h, _⟩ => absurd h hc
      | .inr ⟨_, h⟩ => h⟩

end

/-! ### Parameters -/

namespace Param

theorem WellFormed.nil : WellFormed [] :=
  ⟨List.nodup_nil, fun _ hp => absurd hp List.not_mem_nil⟩

theorem WellFormed.snoc {earlier : List Param} (h : WellFormed earlier) {position : Nat}
    {text : List Char} {param : Param} (hp : judge position earlier text = .ok param) :
    WellFormed (earlier ++ [param]) := by
  unfold judge at hp
  split at hp
  next => cases hp
  next name type _ =>
    split at hp
    next => cases hp
    next builtin hbuiltin =>
      split at hp
      next => cases hp
      next fresh =>
        obtain rfl := Except.ok.inj hp
        refine ⟨?_, fun p hp => ?_⟩
        · rw [List.map_append, List.nodup_append]
          refine ⟨h.distinct, List.nodup_cons.mpr ⟨List.not_mem_nil, List.nodup_nil⟩, ?_⟩
          rintro _ hother _ hname rfl
          obtain ⟨other, hmem, rfl⟩ := List.mem_map.mp hother
          obtain rfl := List.mem_singleton.mp hname
          exact fresh (List.any_eq_true.mpr ⟨other, hmem, beq_self_eq_true _⟩)
        · rcases List.mem_append.mp hp with hp | hp
          · exact h.builtin p hp
          · obtain rfl := List.mem_singleton.mp hp
            exact ⟨builtin, (Option.filter_eq_some_iff.mp hbuiltin).2, rfl⟩

theorem wellFormed_of_judgeAll {texts : List (List Char)} {position : Nat}
    {earlier params : List Param} (h : WellFormed earlier)
    (hj : judgeAll position earlier texts = .ok params) : WellFormed params := by
  induction texts generalizing position earlier with
  | nil =>
      obtain rfl := Except.ok.inj hj
      exact h
  | cons text more ih =>
      obtain ⟨param, hp, hmore⟩ := bind_eq_ok.mp hj
      exact ih (h.snoc hp) hmore

theorem wellFormed_of_ofGroup {group : List Char} {params : List Param}
    (h : ofGroup group = .ok params) : WellFormed params := by
  unfold ofGroup at h
  split at h
  · obtain rfl := Except.ok.inj h
    exact .nil
  · exact wellFormed_of_judgeAll .nil h

end Param

/-! ### Procedures -/

theorem Procedure.wellFormed_of_ofLine {line : List Char} {number : Nat} {p : Procedure}
    (h : ofLine line number = .ok p) : p.WellFormed := by
  unfold ofLine at h
  split at h
  next => cases h
  next side oneway name args rets? _ =>
    obtain ⟨hreturns, h⟩ := guard_eq_ok.mp h
    obtain ⟨args, hargs, h⟩ := bind_eq_ok.mp h
    obtain ⟨rets, hrets, h⟩ := bind_eq_ok.mp h
    obtain ⟨_, h⟩ := guard_eq_ok.mp h
    obtain rfl := Except.ok.inj h
    refine ⟨Param.wellFormed_of_ofGroup hargs, Param.wellFormed_of_ofGroup hrets, fun ho => ?_⟩
    cases rets? with
    | none => exact (Except.ok.inj hrets).symm
    | some group => exact absurd (show (oneway && true) = true by simpa using ho) hreturns

/-! ### Services -/

namespace Service

theorem WellFormed.named (name : String) : (Service.named name).WellFormed := by
  have absent : ∀ side key, ((Service.named name).procedures side).find? key = none := by
    intro side key
    cases side <;> rfl
  refine ⟨?_, ?_, ?_⟩ <;> intro side key p hp <;> rw [absent] at hp <;> cases hp

theorem procedures_addType (s : Service) (t : DataType) (side : Side) :
    (s.addType t).procedures side = s.procedures side := by
  cases side <;> rfl

theorem procedures_addProcedure (s : Service) (p : Procedure) (side : Side) :
    (s.addProcedure p).procedures side =
      if side = p.side then (s.procedures side).insert p.name p else s.procedures side := by
  obtain ⟨name, at_, oneway, args, rets, line⟩ := p
  cases side <;> cases at_ <;> rfl

theorem find?_addProcedure {s : Service} {p q : Procedure} {side : Side} {name : String}
    (h : ((s.addProcedure p).procedures side).find? name = some q) :
    (side = p.side ∧ name = p.name ∧ q = p) ∨ (s.procedures side).find? name = some q := by
  rw [procedures_addProcedure] at h
  split at h
  next hside =>
    rw [Table.find?_insert] at h
    split at h
    next hname => exact .inl ⟨hside, hname, (Option.some.inj h).symm⟩
    next => exact .inr h
  next => exact .inr h

theorem WellFormed.addProcedure {s : Service} (h : s.WellFormed) {p : Procedure}
    (hp : p.WellFormed) : (s.addProcedure p).WellFormed := by
  refine ⟨?_, ?_, ?_⟩ <;> intro side name q hq <;>
    rcases find?_addProcedure hq with ⟨hside, hname, rfl⟩ | hold
  · exact hname.symm
  · exact h.name hold
  · exact hside.symm
  · exact h.side hold
  · exact hp
  · exact h.procedure hold

theorem WellFormed.addType {s : Service} (h : s.WellFormed) (t : DataType) :
    (s.addType t).WellFormed := by
  refine ⟨?_, ?_, ?_⟩ <;> intro side name p hp <;> rw [procedures_addType] at hp
  · exact h.name hp
  · exact h.side hp
  · exact h.procedure hp

theorem WellFormed.judgeLine {s t : Service} (h : s.WellFormed) {number : Nat} {line : List Char}
    (hj : s.judgeLine number line = .ok t) : t.WellFormed := by
  unfold Service.judgeLine at hj
  split at hj
  next =>
    obtain rfl := Except.ok.inj hj
    exact h
  next =>
    obtain ⟨procedure, hp, hj⟩ := bind_eq_ok.mp hj
    obtain ⟨_, hj⟩ := guard_eq_ok.mp hj
    obtain rfl := Except.ok.inj hj
    exact h.addProcedure (Procedure.wellFormed_of_ofLine hp)
  next =>
    obtain ⟨type, _, hj⟩ := bind_eq_ok.mp hj
    obtain rfl := Except.ok.inj hj
    exact h.addType type
  next => cases hj

theorem WellFormed.judgeItems {s t : Service} (h : s.WellFormed) {number : Nat} {items : List Item}
    (hj : s.judgeItems number items = .ok t) : t.WellFormed := by
  induction items generalizing s number with
  | nil =>
      obtain rfl := Except.ok.inj hj
      exact h
  | cons item more ih =>
      cases item with
      | failure reason => cases hj
      | line text =>
          unfold Service.judgeItems at hj
          split at hj
          next hline => exact ih (h.judgeLine hline) hj
          next => cases hj

/-- Every service that is parsed is in order. -/
theorem wellFormed_of_parse {source : Source} {s : Service} (h : parse source = .ok s) :
    s.WellFormed := by
  unfold parse ofItems at h
  split at h
  next => cases h
  next => cases h
  next =>
    split at h
    next name _ => exact (WellFormed.named name).judgeItems h
    next => cases h

end Service

end DuplexRpc
