import StageFlow.Action
import StageFlow.Proofs.Failure

/-!
# Strict evaluation

Evaluators differ in what they make of variables without a value: to a strict one they are errors, to a
lenient one they are empty. `Evaluator.strict_only_adds` says that nothing else differs. A strict
evaluator gives what the lenient one gives, be it a value or an error, or it blames a variable that
occurs and has no value; and that is true of expressions, of templates and of the choice among the
variants of an action.

* `Tightens`: what a strict evaluation may give beside a lenient one. It is kept by doing one thing
  after the other, so that the proof follows the definition of evaluation.
-/

namespace StageFlow

/-! ## Where variables occur -/

/-- A variable occurs in an expression. -/
inductive Expr.Occurs (x : String) : Expr → Prop
  | var : Occurs x (.var x)
  | not {e} (occurs : Occurs x e) : Occurs x (.not e)
  | andLeft {l r} (occurs : Occurs x l) : Occurs x (.and l r)
  | andRight {l r} (occurs : Occurs x r) : Occurs x (.and l r)
  | orLeft {l r} (occurs : Occurs x l) : Occurs x (.or l r)
  | orRight {l r} (occurs : Occurs x r) : Occurs x (.or l r)
  | compareLeft {op l r} (occurs : Occurs x l) : Occurs x (.compare op l r)
  | compareRight {op l r} (occurs : Occurs x r) : Occurs x (.compare op l r)
  | argument {name args e} (member : e ∈ args) (occurs : Occurs x e) : Occurs x (.call name args)

/-- A variable occurs in the text of an expression. -/
def Expr.OccursIn (text x : String) : Prop := ∃ e, Expr.parse text = .ok e ∧ e.Occurs x

/-- A variable occurs in a hole of a template. -/
def Template.OccursIn (template x : String) : Prop :=
  ∃ e, .hole e ∈ Template.pieces template.toList ∧ Expr.OccursIn (String.ofList e) x

/-- A variable occurs in a guard of an action. -/
def Action.OccursIn (a : Action) (x : String) : Prop :=
  ∃ vs, a.kind = .variants vs ∧ ∃ v ∈ vs, Expr.OccursIn v.guard x

/-! ## One thing after the other -/

/-- The strict result is the lenient one, or it blames one of the given variables. -/
structure Tightens {α : Type} (blamed : String → Prop) (strict lenient : Except ExprError α) : Prop where
  same_or : strict = lenient ∨ ∃ x, blamed x ∧ strict = .error (.undefinedVariable x)
  never : ∀ x, lenient ≠ .error (.undefinedVariable x)

namespace Tightens

variable {α β : Type} {blamed blamed' : String → Prop} {strict lenient : Except ExprError α}

theorem refl {r : Except ExprError α} (h : ∀ x, r ≠ .error (.undefinedVariable x)) :
    Tightens blamed r r := ⟨.inl rfl, h⟩

theorem ok (a : α) : Tightens blamed (.ok a) (.ok a) := refl nofun

theorem mono (h : Tightens blamed strict lenient) (himp : ∀ x, blamed x → blamed' x) :
    Tightens blamed' strict lenient :=
  ⟨h.same_or.imp_right fun ⟨x, hx, heq⟩ => ⟨x, himp x hx, heq⟩, h.never⟩

theorem bind {f g : α → Except ExprError β} (h : Tightens blamed strict lenient)
    (hnext : ∀ a, Tightens blamed (f a) (g a)) : Tightens blamed (strict >>= f) (lenient >>= g) where
  same_or := by
    rcases h.same_or with rfl | ⟨x, hx, rfl⟩
    · cases strict with
      | error => exact .inl rfl
      | ok a => exact (hnext a).same_or
    · exact .inr ⟨x, hx, rfl⟩
  never x hx := by
    rcases bind_eq_error.mp hx with hx | ⟨a, -, hx⟩
    · exact h.never x hx
    · exact (hnext a).never x hx

end Tightens

namespace Evaluator

/-- The evaluator that takes variables without a value for errors. -/
def strictly (ev : Evaluator) : Evaluator := { ev with strict := true }

/-- The evaluator that takes variables without a value for empty. -/
def leniently (ev : Evaluator) : Evaluator := { ev with strict := false }

/-! ## Functions -/

section
variable {blamed : String → Prop}

theorem two_tightens (name : String) (args : List Value) :
    Tightens blamed (two name args) (two name args) := by
  unfold two
  split <;> exact .refl nofun

theorem one_tightens (name : String) (args : List Value) :
    Tightens blamed (one name args) (one name args) := by
  unfold one
  split <;> exact .refl nofun

/-- Functions do not look at strictness. -/
theorem call_strictly (ev : Evaluator) (name : String) (args : List Value) :
    ev.strictly.call name args = ev.leniently.call name args := rfl

/-- Functions do not see variables. -/
theorem call_tightens (ev : Evaluator) (name : String) (args : List Value) :
    Tightens blamed (ev.strictly.call name args) (ev.leniently.call name args) := by
  rw [call_strictly]
  unfold call
  split
  · exact (two_tightens _ _).bind fun _ => .ok _
  · exact (two_tightens _ _).bind fun _ => .ok _
  · exact (two_tightens _ _).bind fun _ => .ok _
  · refine (two_tightens _ _).bind fun _ => ?_
    dsimp only
    split <;> exact .refl nofun
  · refine (one_tightens _ _).bind fun path => ?_
    dsimp only
    split <;> exact .refl nofun
  · refine (two_tightens _ _).bind fun _ => ?_
    dsimp only
    split <;> exact .refl nofun
  · exact .refl nofun

end

/-! ## Expressions -/

mutual

/-- Evaluation goes the same way until it meets a variable without a value. -/
theorem eval_tightens (ev : Evaluator) (c : Context) : ∀ e : Expr,
    Tightens (fun x => e.Occurs x ∧ c.get? x = none) (ev.strictly.eval c e) (ev.leniently.eval c e)
  | .lit v => .ok v
  | .var name => by
    rw [eval, eval]
    split
    next v _ => exact .ok v
    next hnone => exact ⟨.inr ⟨name, ⟨.var, hnone⟩, rfl⟩, nofun⟩
  | .not e => by
    rw [eval, eval]
    refine ((eval_tightens ev c e).mono fun x hx => ⟨.not hx.1, hx.2⟩).bind fun v => .ok _
  | .and l r => by
    rw [eval, eval]
    refine ((eval_tightens ev c l).mono fun x hx => ⟨.andLeft hx.1, hx.2⟩).bind fun a => ?_
    split
    · exact ((eval_tightens ev c r).mono fun x hx => ⟨.andRight hx.1, hx.2⟩).bind fun b => .ok _
    · exact .ok _
  | .or l r => by
    rw [eval, eval]
    refine ((eval_tightens ev c l).mono fun x hx => ⟨.orLeft hx.1, hx.2⟩).bind fun a => ?_
    split
    · exact .ok _
    · exact ((eval_tightens ev c r).mono fun x hx => ⟨.orRight hx.1, hx.2⟩).bind fun b => .ok _
  | .compare op l r => by
    rw [eval, eval]
    refine ((eval_tightens ev c l).mono fun x hx => ⟨.compareLeft hx.1, hx.2⟩).bind fun a => ?_
    exact ((eval_tightens ev c r).mono fun x hx => ⟨.compareRight hx.1, hx.2⟩).bind fun b => .ok _
  | .call name args => by
    rw [eval, eval]
    refine ((evalAll_tightens ev c args).mono fun x hx => ?_).bind fun vs => call_tightens ev name vs
    obtain ⟨⟨e, he, hx⟩, hnone⟩ := hx
    exact ⟨.argument he hx, hnone⟩

theorem evalAll_tightens (ev : Evaluator) (c : Context) : ∀ es : List Expr,
    Tightens (fun x => (∃ e ∈ es, e.Occurs x) ∧ c.get? x = none) (ev.strictly.evalAll c es)
      (ev.leniently.evalAll c es)
  | [] => .ok []
  | e :: es => by
    rw [evalAll, evalAll]
    refine ((eval_tightens ev c e).mono fun x hx => ?_).bind fun v => ?_
    · exact ⟨⟨e, List.mem_cons_self, hx.1⟩, hx.2⟩
    refine ((evalAll_tightens ev c es).mono fun x hx => ?_).bind fun vs => .ok _
    obtain ⟨⟨e', he', hx⟩, hnone⟩ := hx
    exact ⟨⟨e', List.mem_cons_of_mem e he', hx⟩, hnone⟩

end

theorem evaluate_tightens (ev : Evaluator) (c : Context) (text : String) :
    Tightens (fun x => Expr.OccursIn text x ∧ c.get? x = none) (ev.strictly.evaluate c text)
      (ev.leniently.evaluate c text) := by
  unfold evaluate
  split
  next => exact .refl nofun
  next e he => exact (eval_tightens ev c e).mono fun x hx => ⟨⟨e, he, hx.1⟩, hx.2⟩

theorem test_tightens (ev : Evaluator) (c : Context) (text : String) :
    Tightens (fun x => Expr.OccursIn text x ∧ c.get? x = none) (ev.strictly.test c text)
      (ev.leniently.test c text) :=
  (evaluate_tightens ev c text).bind fun _ => .ok _

end Evaluator

/-! ## Templates and actions -/

open Evaluator

theorem Template.fill_tightens (ev : Evaluator) (c : Context) (ps : List Piece) :
    Tightens (fun x => (∃ e, .hole e ∈ ps ∧ Expr.OccursIn (String.ofList e) x) ∧ c.get? x = none)
      (fill ev.strictly c ps) (fill ev.leniently c ps) := by
  induction ps with
  | nil => exact .ok []
  | cons p ps ih =>
    have hrest : Tightens (fun x =>
        (∃ e, .hole e ∈ p :: ps ∧ Expr.OccursIn (String.ofList e) x) ∧ c.get? x = none)
        (fill ev.strictly c ps) (fill ev.leniently c ps) := by
      refine ih.mono ?_
      rintro x ⟨⟨e, he, hx⟩, hnone⟩
      exact ⟨⟨e, List.mem_cons_of_mem p he, hx⟩, hnone⟩
    cases p with
    | text cs => exact hrest.bind fun _ => .ok _
    | hole e =>
      refine ((evaluate_tightens ev c (String.ofList e)).mono fun x hx => ?_).bind fun v => ?_
      · exact ⟨⟨e, List.mem_cons_self, hx.1⟩, hx.2⟩
      · exact hrest.bind fun _ => .ok _

theorem Template.interpolate_tightens (ev : Evaluator) (c : Context) (template : String) :
    Tightens (fun x => Template.OccursIn template x ∧ c.get? x = none)
      (interpolate ev.strictly c template) (interpolate ev.leniently c template) :=
  (fill_tightens ev c (pieces template.toList)).bind fun _ => .ok _

theorem Action.firstMatch_tightens (ev : Evaluator) (c : Context) (vs : List Variant) :
    Tightens (fun x => (∃ v ∈ vs, Expr.OccursIn v.guard x) ∧ c.get? x = none)
      (firstMatch ev.strictly c vs) (firstMatch ev.leniently c vs) := by
  induction vs with
  | nil => exact .ok none
  | cons v vs ih =>
    rw [firstMatch, firstMatch]
    refine ((test_tightens ev c v.guard).mono fun x hx => ?_).bind fun applies => ?_
    · exact ⟨⟨v, List.mem_cons_self, hx.1⟩, hx.2⟩
    split
    · exact .ok _
    · refine ih.mono ?_
      rintro x ⟨⟨v', hv', hx⟩, hnone⟩
      exact ⟨⟨v', List.mem_cons_of_mem v hv', hx⟩, hnone⟩

theorem Action.resolve_tightens (ev : Evaluator) (c : Context) (a : Action) :
    Tightens (fun x => a.OccursIn x ∧ c.get? x = none) (a.resolve ev.strictly c)
      (a.resolve ev.leniently c) := by
  unfold resolve
  split
  next r _ => exact .ok _
  next vs hvs => exact (firstMatch_tightens ev c vs).mono fun x hx => ⟨⟨vs, hvs, hx.1⟩, hx.2⟩

/-! ## Strict and lenient -/

/-- Strictness adds errors about variables that occur and have no value, and does nothing else. -/
structure OnlyAdds {α : Type} (c : Context) (occurs : String → Prop)
    (strict lenient : Except ExprError α) : Prop where
  same_or : strict = lenient ∨
    ∃ x, occurs x ∧ c.get? x = none ∧ strict = .error (.undefinedVariable x)
  never : ∀ x, lenient ≠ .error (.undefinedVariable x)
  same_of_bound : (∀ x, occurs x → ∃ v, c.get? x = some v) → strict = lenient

theorem Tightens.onlyAdds {α : Type} {c : Context} {occurs : String → Prop}
    {strict lenient : Except ExprError α}
    (h : Tightens (fun x => occurs x ∧ c.get? x = none) strict lenient) :
    OnlyAdds c occurs strict lenient where
  same_or := h.same_or.imp_right fun ⟨x, ⟨hx, hnone⟩, heq⟩ => ⟨x, hx, hnone, heq⟩
  never := h.never
  same_of_bound hbound := by
    rcases h.same_or with heq | ⟨x, ⟨hx, hnone⟩, -⟩
    · exact heq
    · obtain ⟨v, hv⟩ := hbound x hx
      cases hnone.symm.trans hv

/-- Expressions, templates and the choice among variants differ between strict and lenient evaluators
in errors about variables without a value only. -/
theorem Evaluator.strict_only_adds (ev : Evaluator) (c : Context) :
    (∀ text, OnlyAdds c (Expr.OccursIn text) (ev.strictly.evaluate c text)
      (ev.leniently.evaluate c text)) ∧
    (∀ template, OnlyAdds c (Template.OccursIn template)
      (Template.interpolate ev.strictly c template) (Template.interpolate ev.leniently c template)) ∧
    ∀ a : Action, OnlyAdds c a.OccursIn (a.resolve ev.strictly c) (a.resolve ev.leniently c) :=
  ⟨fun text => (evaluate_tightens ev c text).onlyAdds,
    fun template => (Template.interpolate_tightens ev c template).onlyAdds,
    fun a => (Action.resolve_tightens ev c a).onlyAdds⟩

/-- Where two things are wrong, strictness may change which one is reported. -/
theorem Evaluator.strict_only_adds_branch :
    (leniently plain).evaluate .empty "upper(branch)" = .error (.unknownFunction "upper") ∧
      (strictly plain).evaluate .empty "upper(branch)" = .error (.undefinedVariable "branch") := by
  have hparse : Expr.parse "upper(branch)" = .ok (.call "upper" [.var "branch"]) := by cbv
  have hlenient : (leniently plain).evaluate .empty "upper(branch)" = .error (.unknownFunction "upper") := by
    rw [evaluate, hparse]
    rfl
  have hne : (strictly plain).evaluate .empty "upper(branch)" ≠
      (leniently plain).evaluate .empty "upper(branch)" := by
    rw [hlenient, evaluate, hparse]
    intro h
    cases h
  obtain ⟨x, ⟨e, he, hx⟩, -, hstrict⟩ :=
    ((strict_only_adds plain .empty).1 "upper(branch)").same_or.resolve_left hne
  -- the one variable of the text is the one that is blamed
  cases hparse.symm.trans he
  cases hx with
  | argument hmem hx =>
    cases List.mem_singleton.mp hmem
    cases hx
    exact ⟨hlenient, hstrict⟩

end StageFlow
