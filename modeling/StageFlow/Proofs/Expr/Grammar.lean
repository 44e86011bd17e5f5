import Mathlib
import StageFlow.Expr.Parser

/-!
# The grammar of expressions

Which tokens derive which expression, whatever reads them. From the tightest to the loosest:

* a primary is a literal, a variable, a call with any number of arguments, or a disjunction in
  parentheses;
* a comparison is a series of primaries joined by comparison operators;
* a negation is a comparison, or `!` and a negation;
* a conjunction is a series of negations joined by `&&`;
* a disjunction is a series of conjunctions joined by `||`.

A series groups to the left. A derivation gives every token its *running depth*. In a derivation at
some depth a token is as deep as that, and deeper by one for each pair of parentheses and each argument
list around it, for each `!` whose operand it belongs to, and for each operator to its left in a series
that it belongs to.
-/

namespace StageFlow.Expr

/-- What can be a series of operands. -/
inductive Series where
  | comparison | conjunction | disjunction

/-- What can be derived. -/
inductive Phrase where
  | primary
  | negation
  | series (s : Series)
  /-- A series with the given number of operators. -/
  | links (s : Series) (n : Nat)

/-- What a series is a series of. -/
def Series.operand : Series → Phrase
  | .comparison => .primary
  | .conjunction => .negation
  | .disjunction => .series .conjunction

/-- The operators of a series, and what they join. -/
inductive Joins : Series → Token → (Expr → Expr → Expr) → Prop
  | eq : Joins .comparison .eq (.compare .eq)
  | ne : Joins .comparison .ne (.compare .ne)
  | lt : Joins .comparison .lt (.compare .lt)
  | le : Joins .comparison .le (.compare .le)
  | gt : Joins .comparison .gt (.compare .gt)
  | ge : Joins .comparison .ge (.compare .ge)
  | and : Joins .conjunction .and .and
  | or : Joins .disjunction .or .or

/-- A token in a derivation. -/
structure Leaf where
  token : Token
  /-- The running depth. -/
  depth : Nat

/-- Puts commas between the words of arguments. -/
def separated (depth : Nat) : List (List Leaf) → List Leaf
  | [] => []
  | [w] => w
  | w :: w' :: ws => w ++ ⟨.comma, depth⟩ :: separated depth (w' :: ws)

/-- Tokens derive an expression at a depth. -/
inductive Derives : Phrase → Nat → List Leaf → Expr → Prop
  | num {d} (n : Number) : Derives .primary d [⟨.num n, d⟩] (.lit (.num n))
  | str {d} (s : String) : Derives .primary d [⟨.str s, d⟩] (.lit (.str s))
  | true {d} : Derives .primary d [⟨.true, d⟩] (.lit (.bool .true))
  | false {d} : Derives .primary d [⟨.false, d⟩] (.lit (.bool .false))
  | var {d} (name : String) : Derives .primary d [⟨.ident name, d⟩] (.var name)
  | call {d} (name : String) (args : List (List Leaf × Expr))
      (args_derive : ∀ a ∈ args, Derives (.series .disjunction) (d + 1) a.1 a.2) :
      Derives .primary d
        (⟨.ident name, d⟩ :: ⟨.lparen, d⟩ ::
          (separated (d + 1) (args.map Prod.fst) ++ [⟨.rparen, d⟩]))
        (.call name (args.map Prod.snd))
  | paren {d w e} (inner : Derives (.series .disjunction) (d + 1) w e) :
      Derives .primary d (⟨.lparen, d⟩ :: (w ++ [⟨.rparen, d⟩])) e
  | not {d w e} (operand : Derives .negation (d + 1) w e) :
      Derives .negation d (⟨.not, d⟩ :: w) (.not e)
  | plain {d w e} (comparison : Derives (.series .comparison) d w e) : Derives .negation d w e
  | first {s d w e} (operand : Derives s.operand d w e) : Derives (.links s 0) d w e
  | next {s n d w l op join w' r} (left : Derives (.links s n) d w l) (joins : Joins s op join)
      (right : Derives s.operand (d + n + 1) w' r) :
      Derives (.links s (n + 1)) d (w ++ ⟨op, d + n⟩ :: w') (join l r)
  | series {s n d w e} (links : Derives (.links s n) d w e) : Derives (.series s) d w e

variable {p : Phrase} {d room : Nat} {w : List Leaf} {e : Expr}

/-- The phrase binds tighter than `!`. -/
def Phrase.isTight : Phrase → Bool
  | .primary | .series .comparison | .links .comparison _ => .true
  | _ => .false

/-- A derivation starts with a token at its own depth, which is no closing parenthesis, and `!` only if
the phrase is loose enough. -/
theorem Derives.head (h : Derives p d w e) :
    ∃ t tl, w = ⟨t, d⟩ :: tl ∧ t ≠ .rparen ∧ (p.isTight → t ≠ .not) := by
  induction h with
  | num | str | true | false | var | call | paren => exact ⟨_, _, rfl, nofun, nofun⟩
  | not => exact ⟨_, _, rfl, nofun, nofun⟩
  | plain _ ih =>
    obtain ⟨t, tl, rfl, ht, -⟩ := ih
    exact ⟨t, tl, rfl, ht, nofun⟩
  | @first s _ _ _ _ ih =>
    obtain ⟨t, tl, rfl, ht, htight⟩ := ih
    cases s with
    | comparison => exact ⟨t, tl, rfl, ht, htight⟩
    | conjunction | disjunction => exact ⟨t, tl, rfl, ht, nofun⟩
  | @next s _ _ _ _ _ _ _ _ _ _ _ ih =>
    obtain ⟨t, tl, rfl, ht, htight⟩ := ih
    exact ⟨t, _, rfl, ht, by cases s <;> exact htight⟩
  | @series s _ _ _ _ _ ih =>
    obtain ⟨t, tl, rfl, ht, htight⟩ := ih
    exact ⟨t, tl, rfl, ht, by cases s <;> exact htight⟩

theorem Derives.ne_nil (h : Derives p d w e) : w ≠ [] := by
  obtain ⟨t, tl, rfl, -⟩ := h.head
  exact List.cons_ne_nil _ _

/-- All tokens are within a depth. -/
def Within (limit : Nat) (w : List Leaf) : Prop := ∀ t ∈ w, t.depth ≤ limit

theorem Within.append_iff {w w' : List Leaf} {limit : Nat} :
    Within limit (w ++ w') ↔ Within limit w ∧ Within limit w' := List.forall_mem_append

theorem Within.cons_iff {t : Leaf} {w : List Leaf} {limit : Nat} :
    Within limit (t :: w) ↔ t.depth ≤ limit ∧ Within limit w := List.forall_mem_cons

/-- The words of arguments start with the first argument. -/
theorem exists_separated_eq_cons (depth : Nat) {w w' : List Leaf} {t : Leaf} (h : w = t :: w')
    (ws : List (List Leaf)) : ∃ tl, separated depth (w :: ws) = t :: tl := by
  cases ws <;> exact h ▸ ⟨_, rfl⟩

theorem Within.of_separated {limit depth : Nat} {ws : List (List Leaf)}
    (h : Within limit (separated depth ws)) : ∀ w ∈ ws, Within limit w := by
  induction ws using separated.induct with
  | case1 => nofun
  | case2 w => exact List.forall_mem_singleton.mpr h
  | case3 w w' ws ih =>
    obtain ⟨hw, hrest⟩ := Within.append_iff.mp h
    exact List.forall_mem_cons.mpr ⟨hw, ih (Within.cons_iff.mp hrest).2⟩

theorem Within.separated {limit depth : Nat} {ws : List (List Leaf)} (hdepth : depth ≤ limit)
    (h : ∀ w ∈ ws, Within limit w) : Within limit (separated depth ws) := by
  induction ws using separated.induct with
  | case1 => nofun
  | case2 w => exact h w List.mem_cons_self
  | case3 w w' ws ih =>
    obtain ⟨hw, hws⟩ := List.forall_mem_cons.mp h
    exact Within.append_iff.mpr ⟨hw, Within.cons_iff.mpr ⟨hdepth, ih hws⟩⟩

/-- A limit on the tokens of a derivation leaves it its own depth. -/
theorem Derives.depth_le {limit : Nat} (h : Derives p d w e) (hw : Within limit w) : d ≤ limit := by
  obtain ⟨t, tl, rfl, -⟩ := h.head
  exact hw ⟨t, d⟩ List.mem_cons_self

/-- What is one level deeper has one less room. -/
theorem Derives.exists_room (h : Derives p (d + 1) w e) (hw : Within (d + room) w) :
    ∃ r, room = r + 1 ∧ Within (d + 1 + r) w := by
  have hd := h.depth_le hw
  obtain ⟨r, rfl⟩ : ∃ r, room = r + 1 := ⟨room - 1, by omega⟩
  have hdeeper : d + (r + 1) = d + 1 + r := by omega
  exact ⟨r, rfl, hdeeper ▸ hw⟩

end StageFlow.Expr
