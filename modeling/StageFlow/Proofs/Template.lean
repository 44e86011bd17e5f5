import StageFlow.Proofs.Failure
import StageFlow.Template

/-!
# The layout of templates

A template is a row of holes, each with the text before it and an expression between its braces, and a
tail. Braces are looked for from left to right: the text before a hole ends where the first opening
braces are, its expression ends where the first closing braces behind them are, and in the tail no
opening braces are followed by closing ones. Every template has one layout of that kind, and
`Template.interpolate_layout` says that the values of the holes take the places of the holes, whatever
braces there may be in the values, in the texts or in the tail.

* `Text.FirstAfter`: the first occurrence of a pattern is the one at the end.
* `Template.Layout`, `Template.Layout.Proper`: layouts, and where the braces are in them.
-/

namespace StageFlow

/-! ## First occurrences -/

namespace Text

variable {pat cs a a' b b' rest : List Char}

/-- The first `pat` in `cs ++ pat` is the one after `cs`. -/
def FirstAfter (cs pat : List Char) : Prop := ∀ a b, cs ++ pat = a ++ pat ++ b → b = []

theorem firstAfter_nil : FirstAfter [] pat := by
  intro x y h
  have hlength := congrArg List.length h
  simp only [List.length_append, List.length_nil] at hlength
  exact List.eq_nil_of_length_eq_zero (by omega)

theorem FirstAfter.unique (h : FirstAfter a pat) (h' : FirstAfter a' pat)
    (heq : a ++ pat ++ b = a' ++ pat ++ b') : a = a' ∧ b = b' := by
  rcases List.append_eq_append_iff.mp heq with ⟨y, hy, rfl⟩ | ⟨y, hy, rfl⟩
  · obtain rfl := h' a y hy
    rw [List.append_nil] at hy
    exact ⟨(List.append_cancel_right hy).symm, rfl⟩
  · obtain rfl := h a' y hy
    rw [List.append_nil] at hy
    exact ⟨List.append_cancel_right hy, rfl⟩

theorem after?_append (pat rest : List Char) : after? pat (pat ++ rest) = some rest := by
  induction pat with
  | nil => rfl
  | cons p pat ih => rw [List.cons_append, after?, if_pos rfl, ih]

theorem cutAround?_eq_none_iff : cutAround? pat cs = none ↔ ∀ a b, cs ≠ a ++ pat ++ b := by
  constructor
  · rintro h a b rfl
    induction a with
    | nil =>
      rw [List.nil_append] at h
      cases hcs : pat ++ b with
      | nil =>
        obtain ⟨rfl, rfl⟩ := List.append_eq_nil_iff.mp hcs
        cases h
      | cons c cs =>
        have hafter := after?_append pat b
        rw [hcs] at h hafter
        rw [cutAround?, hafter] at h
        cases h
    | cons c a ih =>
      rw [List.cons_append, List.cons_append, cutAround?] at h
      split at h
      · cases h
      · exact ih (Option.map_eq_none_iff.mp h)
  · intro h
    cases hcut : cutAround? pat cs with
    | none => rfl
    | some p => exact (h p.1 p.2 (cutAround?_eq_some hcut)).elim

theorem firstAfter_of_cutAround? (h : cutAround? pat cs = some (a, b)) : FirstAfter a pat := by
  induction cs generalizing a with
  | nil =>
    obtain ⟨rest, -, heq⟩ := Option.map_eq_some_iff.mp h
    obtain ⟨rfl, -⟩ := Prod.mk.inj heq
    exact firstAfter_nil
  | cons c cs ih =>
    have hcs := cutAround?_eq_some h
    rw [cutAround?] at h
    split at h
    next rest hrest =>
      obtain ⟨rfl, -⟩ := Prod.mk.inj (Option.some.inj h)
      exact firstAfter_nil
    next hnone =>
      obtain ⟨⟨a', b'⟩, hp, heq⟩ := Option.map_eq_some_iff.mp h
      obtain ⟨rfl, rfl⟩ := Prod.mk.inj heq
      intro x y hxy
      cases x with
      | nil =>
        -- then the pattern would be where nothing was found
        have hstart := after?_append pat (y ++ b')
        rw [hcs, hxy, List.nil_append, List.append_assoc, hstart] at hnone
        cases hnone
      | cons d x => exact ih hp x y (List.cons.inj hxy).2

theorem cutAround?_eq_some_iff :
    cutAround? pat cs = some (a, b) ↔ cs = a ++ pat ++ b ∧ FirstAfter a pat := by
  refine ⟨fun h => ⟨cutAround?_eq_some h, firstAfter_of_cutAround? h⟩, fun ⟨hcs, hfirst⟩ => ?_⟩
  cases hcut : cutAround? pat cs with
  | none => exact (cutAround?_eq_none_iff.mp hcut a b hcs).elim
  | some p =>
    have heq := (cutAround?_eq_some hcut).symm.trans hcs
    obtain ⟨rfl, rfl⟩ := (firstAfter_of_cutAround? hcut).unique hfirst heq
    rfl

theorem firstAfter_iff : FirstAfter cs pat ↔ cutAround? pat (cs ++ pat) = some (cs, []) := by
  rw [cutAround?_eq_some_iff, List.append_nil, eq_self, true_and]

instance (cs pat : List Char) : Decidable (FirstAfter cs pat) := decidable_of_iff _ firstAfter_iff.symm

end Text

namespace Template

/-! ## Layouts -/

/-- A hole with the text before it. -/
structure Hole where
  before : List Char
  expr : List Char

/-- The parts of a template. -/
structure Layout where
  holes : List Hole
  tail : List Char

/-- The expression of a hole. -/
def Hole.text (h : Hole) : String := String.ofList h.expr

/-- How a hole is written. -/
def Hole.chars (h : Hole) : List Char := h.before ++ opening ++ h.expr ++ closing

/-- The first opening braces are those of the hole, and so are the first closing ones behind them. -/
structure Hole.Proper (h : Hole) : Prop where
  before : Text.FirstAfter h.before opening
  expr : Text.FirstAfter h.expr closing

/-- No opening braces are followed by closing ones. -/
def HoleFree (cs : List Char) : Prop := ∀ a b c, cs ≠ a ++ opening ++ b ++ closing ++ c

namespace Layout

/-- How a template is written. -/
def chars (l : Layout) : List Char := l.holes.flatMap Hole.chars ++ l.tail

/-- The template of a layout. -/
def template (l : Layout) : String := String.ofList l.chars

/-- The braces are where the first ones are. -/
structure Proper (l : Layout) : Prop where
  holes : ∀ h ∈ l.holes, h.Proper
  tail : HoleFree l.tail

/-- The template with values in place of the holes. -/
def filled (l : Layout) (vs : List Value) : String :=
  String.ofList ((List.zipWith (fun h v => h.before ++ v.text.toList) l.holes vs).flatten ++ l.tail)

/-- The pieces of a layout. -/
def pieces (l : Layout) : List Piece :=
  l.holes.flatMap (fun h => [.text h.before, .hole h.expr]) ++ [.text l.tail]

end Layout

/-! ## Templates have one layout -/

theorem holeFree_iff {cs : List Char} : HoleFree cs ↔
    ∀ p ∈ Text.cutAround? opening cs, Text.cutAround? closing p.2 = none := by
  constructor
  · intro h ⟨a, b⟩ hopen
    rw [Text.cutAround?_eq_none_iff]
    rintro x y rfl
    apply h a x y
    simp only [Text.cutAround?_eq_some hopen, List.append_assoc]
  · rintro h a b c rfl
    cases hopen : Text.cutAround? opening (a ++ opening ++ b ++ closing ++ c) with
    | none =>
      refine Text.cutAround?_eq_none_iff.mp hopen a (b ++ closing ++ c) ?_
      simp only [List.append_assoc]
    | some p =>
      obtain ⟨x, rest⟩ := p
      have hclose := Text.cutAround?_eq_none_iff.mp (h (x, rest) hopen)
      obtain ⟨heq, hfirst⟩ := Text.cutAround?_eq_some_iff.mp hopen
      simp only [List.append_assoc] at heq
      -- the first opening braces are no later than any others, so the closing ones are behind them, too
      rw [← List.append_assoc, ← List.append_assoc x, List.append_eq_append_iff] at heq
      rcases heq with ⟨y, hy, htail⟩ | ⟨y, hy, rfl⟩
      · obtain rfl := hfirst a y hy
        refine hclose b c ?_
        rw [List.append_assoc]
        exact htail.symm
      · refine hclose (y ++ b) c ?_
        simp only [List.append_assoc]

instance (cs : List Char) : Decidable (HoleFree cs) := decidable_of_iff _ holeFree_iff.symm

instance (h : Hole) : Decidable h.Proper :=
  decidable_of_iff (Text.FirstAfter h.before opening ∧ Text.FirstAfter h.expr closing)
    ⟨fun ⟨before, expr⟩ => ⟨before, expr⟩, fun ⟨before, expr⟩ => ⟨before, expr⟩⟩

theorem pieces_holeFree {cs : List Char} (h : HoleFree cs) : pieces cs = [.text cs] := by
  rw [holeFree_iff] at h
  rw [pieces]
  split
  next => rfl
  next a b hopen =>
    split
    next => rfl
    next hclose =>
      rw [h (a, b) hopen] at hclose
      cases hclose

theorem pieces_hole {h : Hole} (hproper : h.Proper) (rest : List Char) :
    pieces (h.chars ++ rest) = .text h.before :: .hole h.expr :: pieces rest := by
  have hopen : Text.cutAround? opening (h.chars ++ rest) =
      some (h.before, h.expr ++ closing ++ rest) := by
    refine Text.cutAround?_eq_some_iff.mpr ⟨?_, hproper.before⟩
    simp only [Hole.chars, List.append_assoc]
  have hclose : Text.cutAround? closing (h.expr ++ closing ++ rest) = some (h.expr, rest) :=
    Text.cutAround?_eq_some_iff.mpr ⟨rfl, hproper.expr⟩
  rw [pieces]
  split
  next hnone => cases hnone.symm.trans hopen
  next a b hsome =>
    cases hsome.symm.trans hopen
    split
    next hnone => cases hnone.symm.trans hclose
    next hsome =>
      cases hsome.symm.trans hclose
      rfl

namespace Layout

theorem pieces_chars {l : Layout} (h : l.Proper) : Template.pieces l.chars = l.pieces := by
  obtain ⟨holes, tail⟩ := l
  obtain ⟨hholes, htail⟩ := h
  induction holes with
  | nil => exact pieces_holeFree htail
  | cons hole holes ih =>
    obtain ⟨hhole, hholes⟩ := List.forall_mem_cons.mp hholes
    rw [chars, List.flatMap_cons, List.append_assoc, pieces_hole hhole]
    exact congrArg (fun ps => .text hole.before :: .hole hole.expr :: ps) (ih hholes htail)

theorem pieces_injective {l l' : Layout} (h : l.pieces = l'.pieces) : l = l' := by
  obtain ⟨holes, tail⟩ := l
  obtain ⟨holes', tail'⟩ := l'
  induction holes generalizing holes' with
  | nil =>
    cases holes' with
    | nil =>
      cases h
      rfl
    | cons => cases h
  | cons hole holes ih =>
    cases holes' with
    | nil => cases h
    | cons hole' holes' =>
      simp only [pieces, List.flatMap_cons, List.cons_append, List.nil_append, List.cons.injEq,
        Piece.text.injEq, Piece.hole.injEq] at h
      obtain ⟨hbefore, hexpr, hrest⟩ := h
      cases ih holes' hrest
      cases hole
      cases hole'
      cases hbefore
      cases hexpr
      rfl

theorem exists_chars_eq (cs : List Char) : ∃ l : Layout, l.Proper ∧ l.chars = cs := by
  fun_induction Template.pieces cs with
  | case1 cs hopen =>
    refine ⟨⟨[], cs⟩, ⟨nofun, holeFree_iff.mpr fun p h => ?_⟩, rfl⟩
    cases hopen.symm.trans h
  | case2 cs a b hopen hclose =>
    refine ⟨⟨[], cs⟩, ⟨nofun, holeFree_iff.mpr fun p h => ?_⟩, rfl⟩
    cases hopen.symm.trans h
    exact hclose
  | case3 cs before after hopen expr rest hclose ih =>
    obtain ⟨⟨holes, tail⟩, ⟨hholes, htail⟩, rfl⟩ := ih
    obtain ⟨rfl, hbefore⟩ := Text.cutAround?_eq_some_iff.mp hopen
    obtain ⟨rfl, hexpr⟩ := Text.cutAround?_eq_some_iff.mp hclose
    refine ⟨⟨⟨before, expr⟩ :: holes, tail⟩, ⟨?_, htail⟩, ?_⟩
    · exact List.forall_mem_cons.mpr ⟨⟨hbefore, hexpr⟩, hholes⟩
    · simp only [chars, List.flatMap_cons, Hole.chars, List.append_assoc]

theorem existsUnique_template_eq (template : String) :
    ∃! l : Layout, l.Proper ∧ l.template = template := by
  obtain ⟨l, hl, hchars⟩ := exists_chars_eq template.toList
  refine ⟨l, ⟨hl, ?_⟩, fun l' ⟨hl', htemplate⟩ => pieces_injective ?_⟩
  · rw [Layout.template, hchars, String.ofList_toList]
  · rw [← pieces_chars hl, ← pieces_chars hl', hchars, ← htemplate, Layout.template,
      String.toList_ofList]

end Layout

/-! ## Filling in values -/

section
variable (ev : Evaluator) (c : Context)

theorem fill_hole_ok {ps : List Piece} {h : Hole} {v : Value} (hv : ev.evaluate c h.text = .ok v) :
    fill ev c (.text h.before :: .hole h.expr :: ps) =
      (fill ev c ps).map fun rest => h.before ++ v.text.toList ++ rest := by
  have hv : ev.evaluate c (String.ofList h.expr) = .ok v := hv
  rw [fill, fill, hv]
  cases fill ev c ps with
  | error => rfl
  | ok rest => exact congrArg Except.ok (List.append_assoc ..).symm

theorem fill_hole_error {ps : List Piece} {h : Hole} {e : ExprError}
    (he : ev.evaluate c h.text = .error e) :
    fill ev c (.text h.before :: .hole h.expr :: ps) = .error e := by
  have he : ev.evaluate c (String.ofList h.expr) = .error e := he
  rw [fill, fill, he]
  rfl

namespace Layout

theorem fill_pieces_ok {l : Layout} {vs : List Value}
    (h : List.Forall₂ (fun h v => ev.evaluate c h.text = .ok v) l.holes vs) :
    fill ev c l.pieces = .ok (l.filled vs).toList := by
  obtain ⟨holes, tail⟩ := l
  simp only at h
  induction h with
  | nil =>
    simp only [pieces, filled, String.toList_ofList]
    exact congrArg Except.ok (List.append_nil tail)
  | cons hv _ ih =>
    simp only [pieces, filled, String.toList_ofList, List.flatMap_cons, List.cons_append,
      List.nil_append, List.zipWith_cons_cons, List.flatten_cons, List.append_assoc] at ih ⊢
    rw [fill_hole_ok ev c hv, ih]
    simp only [Except.map, List.append_assoc]

theorem fill_pieces_error {l : Layout} {before after : List Hole} {hole : Hole} {e : ExprError}
    (hholes : l.holes = before ++ hole :: after)
    (hbefore : ∀ h ∈ before, ∃ v, ev.evaluate c h.text = .ok v)
    (he : ev.evaluate c hole.text = .error e) : fill ev c l.pieces = .error e := by
  obtain ⟨holes, tail⟩ := l
  obtain rfl : holes = before ++ hole :: after := hholes
  induction before with
  | nil => exact fill_hole_error ev c he
  | cons h before ih =>
    obtain ⟨⟨v, hv⟩, hbefore⟩ := List.forall_mem_cons.mp hbefore
    have hrest := ih hbefore
    simp only [pieces, List.cons_append, List.flatMap_cons, List.nil_append] at hrest ⊢
    rw [fill_hole_ok ev c hv, hrest]
    rfl

end Layout

/-- Every template has one layout, and the values take the places of the holes. The first hole that has
no value is reported. -/
theorem interpolate_layout :
    (∀ template : String, ∃! l : Layout, l.Proper ∧ l.template = template) ∧
    ∀ l : Layout, l.Proper →
      (∀ vs, List.Forall₂ (fun h v => ev.evaluate c h.text = .ok v) l.holes vs →
        interpolate ev c l.template = .ok (l.filled vs)) ∧
      ∀ before hole after e, l.holes = before ++ hole :: after →
        (∀ h ∈ before, ∃ v, ev.evaluate c h.text = .ok v) → ev.evaluate c hole.text = .error e →
        interpolate ev c l.template = .error e := by
  refine ⟨Layout.existsUnique_template_eq, fun l hl => ⟨fun vs hvs => ?_, ?_⟩⟩
  · rw [interpolate, Layout.template, String.toList_ofList, Layout.pieces_chars hl,
      Layout.fill_pieces_ok ev c hvs]
    exact congrArg Except.ok (String.ofList_toList ..)
  · intro before hole after e hholes hbefore he
    rw [interpolate, Layout.template, String.toList_ofList, Layout.pieces_chars hl,
      Layout.fill_pieces_error ev c hholes hbefore he]
    rfl

end

/-- Braces before, between and behind two holes: `x }} {{a}}{ {{b}}} {{c`. -/
def bracedLayout : Layout where
  holes := [⟨"x \x7d\x7d ".toList, "a".toList⟩, ⟨"\x7b ".toList, "b".toList⟩]
  tail := "\x7d \x7b\x7bc".toList

/-- Values with braces in them. -/
def bracedContext : Context :=
  Context.empty.bindAll [("a", .str "\x7b\x7bb\x7d\x7d"), ("b", .str "\x7b\x7b")]

/-- Braces in values are not looked at, and neither are those that nothing closes. -/
theorem interpolate_bracedLayout :
    bracedLayout.template =
        "x \x7d\x7d \x7b\x7ba\x7d\x7d\x7b \x7b\x7bb\x7d\x7d\x7d \x7b\x7bc" ∧
      interpolate .plain bracedContext bracedLayout.template =
        .ok "x \x7d\x7d \x7b\x7bb\x7d\x7d\x7b \x7b\x7b\x7d \x7b\x7bc" := by
  have hproper : bracedLayout.Proper := ⟨by decide, by decide⟩
  have ha : Expr.parse "a" = .ok (.var "a") := by cbv
  have hb : Expr.parse "b" = .ok (.var "b") := by cbv
  have hvalues : List.Forall₂ (fun h v => Evaluator.evaluate .plain bracedContext h.text = .ok v)
      bracedLayout.holes [.str "\x7b\x7bb\x7d\x7d", .str "\x7b\x7b"] := by
    refine .cons ?_ (.cons ?_ .nil)
    · change Evaluator.evaluate .plain bracedContext "a" = _
      rw [Evaluator.evaluate, ha]
      rfl
    · change Evaluator.evaluate .plain bracedContext "b" = _
      rw [Evaluator.evaluate, hb]
      rfl
  exact ⟨rfl, ((interpolate_layout .plain bracedContext).2 bracedLayout hproper).1 _ hvalues⟩

end Template
end StageFlow
