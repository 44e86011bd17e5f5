import StageFlow.Proofs.Expr.Completeness
import StageFlow.Proofs.Expr.Descent
import StageFlow.Proofs.Expr.Passes

/-!
# Safety of parsing

The readers of expressions pass on what is left of the tokens and of the room. A descent follows each of
them from its call to its return (`Descent.Follows`): it comes back to the stack and to the depth that it
had at the call, with the index moved on to what is left, or it stops with the same fault.

So whatever the text, scanning and reading it never ask for what is not there, and come to an end
(`parse_safe`).
-/

namespace StageFlow

namespace Descent

open Token Halt
open StageFlow.Expr (Series maxDepth)

/-! ## Looking at what is left -/

/-- From an index on there are the given tokens, and the end of the text. -/
def Left (ms : List Mark) (stop index : Nat) (rest : List Placed) : Prop :=
  ms.drop index = marked stop rest

variable {ms : List Mark} {stop i d n : Nat} {rest : List Placed} {t : Placed} {s s' : State}
  {stack : List Waiting}

theorem Left.next (h : Left ms stop i (t :: rest)) : Left ms stop (i + 1) rest := by
  rw [Left, ← List.drop_drop, h]
  rfl

theorem Left.getElem? (h : Left ms stop i rest) : ms[i]? = (marked stop rest).head? := by
  rw [← List.head?_drop, h]

theorem peek_eq (h : Left ms stop s.index rest) : peek ms s = .ok (rest.head?.map Placed.token) := by
  rw [peek, h.getElem?]
  cases rest <;> rfl

theorem peek_token (h : Left ms stop s.index (t :: rest)) : peek ms s = .ok (some t.token) := by
  rw [peek_eq h]
  rfl

theorem position_eq (h : Left ms stop s.index rest) : position ms s = .ok (Expr.position stop rest) := by
  rw [position, h.getElem?]
  cases rest <;> rfl

theorem advance_end (h : Left ms stop s.index []) : advance ms s = .ok (none, s) := by
  rw [advance, peek_eq h]
  rfl

theorem advance_eq (h : Left ms stop s.index (t :: rest)) :
    advance ms s = .ok (some t.token, { s with index := s.index + 1 }) := by
  rw [advance, peek_eq h]
  rfl

theorem enter_eq (h : s.depth < maxDepth) : enter ms s = .ok { s with depth := s.depth + 1 } :=
  if_pos h

theorem enter_full (h : Left ms stop s.index rest) (hfull : maxDepth ≤ s.depth) :
    enter ms s = malformed (Expr.position stop rest) .tooDeep := by
  rw [enter, if_neg (Nat.not_lt.mpr hfull), position_eq h]
  rfl

theorem leave_eq (h : n ≤ s.depth) : leave s n = .ok { s with depth := s.depth - n } := if_pos h

theorem leave_of_add {control : Control} :
    leave ⟨i, d + n, stack, control⟩ n = .ok ⟨i, d, stack, control⟩ := by
  rw [leave_eq (Nat.le_add_left n d)]
  dsimp only
  rw [Nat.add_sub_cancel]

/-! ## Coming back from a call -/

section
variable {β γ : Type} {back : β → Control} {back' : γ → Control} {x : Except Malformed (β × List Placed)}

/-- The machine comes back with what a reader returns, in front of the tokens that the reader leaves, or
it stops with the fault of the reader. -/
def Comes (ms : List Mark) (stop : Nat) (back : β → Control) (d : Nat) (stack : List Waiting) (s : State) :
    Except Malformed (β × List Placed) → Prop
  | .ok (b, rest) => ∃ i, Left ms stop i rest ∧ Reaches (step ms) s ⟨i, d, stack, back b⟩
  | .error m => Answers (step ms) s (.error m)

theorem Comes.returned {b : β} (h : Left ms stop i rest) :
    Comes ms stop back d stack ⟨i, d, stack, back b⟩ (.ok (b, rest)) := ⟨i, h, .refl⟩

theorem Comes.fault {m : Malformed} (h : step ms s = .error (.answer (.error m))) :
    Comes ms stop back d stack s (.error m) := Answers.stop h

theorem Comes.of_reaches (h : Reaches (step ms) s s') (H : Comes ms stop back d stack s' x) :
    Comes ms stop back d stack s x := by
  cases x with
  | error m => exact Answers.of_reaches h H
  | ok read =>
    obtain ⟨i, hleft, hreaches⟩ := H
    exact ⟨i, hleft, h.trans hreaches⟩

theorem Comes.of_step (h : step ms s = .ok s') (H : Comes ms stop back d stack s' x) :
    Comes ms stop back d stack s x := H.of_reaches (.single h)

/-- A call that passes on what it has waited for comes back with that. -/
theorem Comes.passed {d' : Nat} {stack' : List Waiting} (H : Comes ms stop back d' stack' s x)
    (hstep : ∀ i b, step ms ⟨i, d', stack', back b⟩ = .ok ⟨i, d, stack, back b⟩) :
    Comes ms stop back d stack s x := by
  cases x with
  | error m => exact H
  | ok read =>
    obtain ⟨i, hleft, hreaches⟩ := H
    exact ⟨i, hleft, hreaches.trans (.single (hstep i read.1))⟩

/-- What waits for a call goes on from where the call comes back. -/
theorem Comes.bind {d' : Nat} {stack' : List Waiting} {k : β × List Placed → Except Malformed (γ × List Placed)}
    (H : Comes ms stop back d' stack' s x)
    (hk : ∀ b rest i, x = .ok (b, rest) → Left ms stop i rest →
      Comes ms stop back' d stack ⟨i, d', stack', back b⟩ (k (b, rest))) :
    Comes ms stop back' d stack s (x >>= k) := by
  cases x with
  | error m => exact H
  | ok read =>
    obtain ⟨i, hleft, hreaches⟩ := H
    exact (hk read.1 read.2 i rfl hleft).of_reaches hreaches

end

/-- Called with a depth that leaves a reader its room, a routine comes back with what the reader returns. -/
def Follows (ms : List Mark) (stop bound : Nat) (r : Routine) (reader : Nat → Expr.Reader) : Prop :=
  ∀ ⦃room i d stack rest⦄, room ≤ bound → d + room = maxDepth → Left ms stop i rest →
    Comes ms stop .back d stack ⟨i, d, stack, .call r⟩ (reader room rest)

/-! ## Series -/

section
variable {c : Series} {join next : Expr → Expr → Expr} {before : Expr → Expr} {e : Expr} {entered bound room : Nat}
  {reader : Nat → Expr.Reader}

theorem step_series_end (h : Left ms stop i rest)
    (hop : (rest.head?.map Placed.token).bind c.join? = none) :
    step ms ⟨i, d + charge c + n, ⟨entered, .series c n before⟩ :: stack, .back e⟩ =
      .ok ⟨i, d, stack, .back (before e)⟩ := by
  have hpeek : peek ms ⟨i, d + charge c + n, stack, .back e⟩ = .ok (rest.head?.map Placed.token) :=
    peek_eq h
  have hlinks : leave ⟨i, d + charge c + n, stack, .back e⟩ n = .ok ⟨i, d + charge c, stack, .back e⟩ :=
    leave_of_add
  have hcharge : leave ⟨i, d + charge c, stack, .back e⟩ (charge c) = .ok ⟨i, d, stack, .back e⟩ :=
    leave_of_add
  simp only [step, resume, hpeek, ok_bind, hop, hlinks, hcharge]
  rfl

theorem step_series_next (h : Left ms stop i (t :: rest)) (hop : c.join? t.token = some join)
    (hd : d < maxDepth) :
    step ms ⟨i, d, ⟨entered, .series c n before⟩ :: stack, .back e⟩ =
      .ok ⟨i + 1, d + 1, ⟨entered, .series c (n + 1) (join (before e))⟩ :: stack, .call (operand c)⟩ := by
  have hpeek : peek ms ⟨i, d, stack, .back e⟩ = .ok (some t.token) := peek_token h
  have hadvance : advance ms ⟨i, d, stack, .back e⟩ = .ok (some t.token, ⟨i + 1, d, stack, .back e⟩) :=
    advance_eq h
  have henter : enter ms ⟨i + 1, d, stack, .back e⟩ = .ok ⟨i + 1, d + 1, stack, .back e⟩ := enter_eq hd
  simp only [step, resume, hpeek, ok_bind, Option.bind_some, hop, hadvance, henter]
  rfl

theorem step_series_full (h : Left ms stop i (t :: rest)) (hop : c.join? t.token = some join)
    (hd : maxDepth ≤ d) :
    step ms ⟨i, d, ⟨entered, .series c n before⟩ :: stack, .back e⟩ =
      malformed (Expr.position stop rest) .tooDeep := by
  have hpeek : peek ms ⟨i, d, stack, .back e⟩ = .ok (some t.token) := peek_token h
  have hadvance : advance ms ⟨i, d, stack, .back e⟩ = .ok (some t.token, ⟨i + 1, d, stack, .back e⟩) :=
    advance_eq h
  have henter : enter ms ⟨i + 1, d, stack, .back e⟩ = malformed (Expr.position stop rest) .tooDeep :=
    enter_full h.next hd
  simp only [step, resume, hpeek, ok_bind, Option.bind_some, hop, hadvance, henter]
  rfl

theorem chain_comes (hoperand : Follows ms stop bound (operand c) reader) (hroom : room ≤ bound)
    {left : Expr} (hdepth : d + charge c + n + room = maxDepth) (hleft : before e = left)
    (h : Left ms stop i rest) :
    Comes ms stop .back d stack ⟨i, d + charge c + n, ⟨entered, .series c n before⟩ :: stack, .back e⟩
      (Expr.chain stop c.join? reader room left rest) := by
  subst hleft
  induction room generalizing n i rest before e with
  | zero =>
    cases rest with
    | nil => exact .of_step (step_series_end h rfl) (.returned h)
    | cons t rest =>
      unfold Expr.chain
      cases hop : c.join? t.token with
      | none => exact .of_step (step_series_end h hop) (.returned h)
      | some join => exact .fault (step_series_full h hop (Nat.le_of_eq hdepth.symm))
  | succ room ih =>
    cases rest with
    | nil => exact .of_step (step_series_end h rfl) (.returned h)
    | cons t rest =>
      unfold Expr.chain
      cases hop : c.join? t.token with
      | none => exact .of_step (step_series_end h hop) (.returned h)
      | some join =>
        refine .of_step (step_series_next h hop (by omega)) ?_
        -- the operator has taken one from the room and added one to the depth
        have hless : d + charge c + n + 1 + room = maxDepth := by omega
        refine .bind (hoperand (Nat.le_of_succ_le hroom) hless h.next) ?_
        intro right rest' i' _ hleft
        exact ih (n := n + 1) (Nat.le_of_succ_le hroom) hless hleft

theorem step_series (h : enterSeries ms ⟨i, d, stack, .call (.series c)⟩ c =
      .ok ⟨i, d + charge c, stack, .call (.series c)⟩) :
    step ms ⟨i, d, stack, .call (.series c)⟩ =
      .ok ⟨i, d + charge c, ⟨i, .series c 0 id⟩ :: stack, .call (operand c)⟩ := by
  simp only [step, call, h, ok_bind]
  rfl

/-- Once it is entered, a series comes back with what its reader returns. -/
theorem series_comes (hoperand : Follows ms stop bound (operand c) reader) (hroom : room ≤ bound)
    (hdepth : d + charge c + room = maxDepth) (h : Left ms stop i rest)
    (henter : enterSeries ms ⟨i, d, stack, .call (.series c)⟩ c =
      .ok ⟨i, d + charge c, stack, .call (.series c)⟩) :
    Comes ms stop .back d stack ⟨i, d, stack, .call (.series c)⟩ (c.read stop reader room rest) := by
  refine .of_step (step_series henter) (.bind (hoperand hroom hdepth h) ?_)
  intro left rest' i' _ hleft
  exact chain_comes (n := 0) hoperand hroom hdepth rfl hleft

end

variable {bound room : Nat} {inner : Nat → Expr.Reader} {e : Expr}

theorem follows_comparison
    (hprimary : Follows ms stop bound .primary fun room => Expr.primary stop (inner room)) :
    Follows ms stop bound (.series .comparison) (Expr.comparison stop inner) := by
  intro room i d stack rest hroom hdepth h
  rw [Expr.comparison_eq]
  exact series_comes hprimary hroom hdepth h rfl

theorem follows_conjunction (hnegation : Follows ms stop bound .negation (Expr.negation stop inner)) :
    Follows ms stop bound (.series .conjunction) (Expr.conjunction stop inner) := by
  intro room i d stack rest hroom hdepth h
  rw [Expr.conjunction_eq]
  exact series_comes hnegation hroom hdepth h rfl

/-! ## Negations -/

theorem step_not (h : Left ms stop i (t :: rest)) (ht : t.token = .not) (hd : d < maxDepth) :
    step ms ⟨i, d, stack, .call .negation⟩ =
      .ok ⟨i + 1, d + 1, ⟨i, .negated⟩ :: stack, .call .negation⟩ := by
  have hpeek : peek ms ⟨i, d, stack, .call .negation⟩ = .ok (some t.token) := peek_token h
  have hadvance : advance ms ⟨i, d, stack, .call .negation⟩ =
      .ok (some t.token, ⟨i + 1, d, stack, .call .negation⟩) := advance_eq h
  have henter : enter ms ⟨i + 1, d, stack, .call .negation⟩ =
      .ok ⟨i + 1, d + 1, stack, .call .negation⟩ := enter_eq hd
  simp only [step, call, hpeek, ht, ok_bind, hadvance, henter]
  rfl

theorem step_not_full (h : Left ms stop i (t :: rest)) (ht : t.token = .not) (hd : maxDepth ≤ d) :
    step ms ⟨i, d, stack, .call .negation⟩ = malformed (Expr.position stop rest) .tooDeep := by
  have hpeek : peek ms ⟨i, d, stack, .call .negation⟩ = .ok (some t.token) := peek_token h
  have hadvance : advance ms ⟨i, d, stack, .call .negation⟩ =
      .ok (some t.token, ⟨i + 1, d, stack, .call .negation⟩) := advance_eq h
  have henter : enter ms ⟨i + 1, d, stack, .call .negation⟩ =
      malformed (Expr.position stop rest) .tooDeep := enter_full h.next hd
  simp only [step, call, hpeek, ht, ok_bind, hadvance, henter]
  rfl

theorem step_plain (h : Left ms stop i rest) (hnot : ∀ offset rest', rest ≠ ⟨offset, .not⟩ :: rest') :
    step ms ⟨i, d, stack, .call .negation⟩ =
      .ok ⟨i, d, ⟨i, .plain⟩ :: stack, .call (.series .comparison)⟩ := by
  have hpeek : peek ms ⟨i, d, stack, .call .negation⟩ = .ok (rest.head?.map Placed.token) := peek_eq h
  simp only [step, call, hpeek, ok_bind]
  cases rest with
  | nil => rfl
  | cons t rest =>
    obtain ⟨offset, token⟩ := t
    cases token with
    | not => exact absurd rfl (hnot offset rest)
    | _ => rfl

theorem plain_comes
    (hcomparison : Follows ms stop bound (.series .comparison) (Expr.comparison stop inner))
    (hroom : room ≤ bound) (hdepth : d + room = maxDepth) (h : Left ms stop i rest)
    (hnot : ∀ offset rest', rest ≠ ⟨offset, .not⟩ :: rest') :
    Comes ms stop .back d stack ⟨i, d, stack, .call .negation⟩ (Expr.comparison stop inner room rest) :=
  .of_step (step_plain h hnot) ((hcomparison hroom hdepth h).passed fun _ _ => rfl)

theorem step_negated :
    step ms ⟨i, d + 1, ⟨n, .negated⟩ :: stack, .back e⟩ = .ok ⟨i, d, stack, .back (.not e)⟩ := by
  have hleave : leave ⟨i, d + 1, stack, .back e⟩ 1 = .ok ⟨i, d, stack, .back e⟩ := leave_of_add
  simp only [step, resume, hleave, ok_bind]
  rfl

theorem follows_negation
    (hcomparison : Follows ms stop bound (.series .comparison) (Expr.comparison stop inner)) :
    Follows ms stop bound .negation (Expr.negation stop inner) := by
  intro room i d stack rest hroom hdepth h
  induction room generalizing i d stack rest with
  | zero =>
    unfold Expr.negation
    split
    next start rest _ => exact .fault (step_not_full h rfl (Nat.le_of_eq hdepth.symm))
    next hr => cases hr
    next hnot _ => exact plain_comes hcomparison hroom hdepth h fun offset rest' => hnot offset rest' rfl
  | succ room ih =>
    unfold Expr.negation
    split
    next hr => cases hr
    next start rest hr =>
      cases hr
      have hless : d + 1 + room = maxDepth := by omega
      refine .of_step (step_not h rfl (by omega)) ?_
      refine .bind (ih (Nat.le_of_succ_le hroom) hless h.next) ?_
      intro e rest' i' _ hleft
      exact .of_step step_negated (.returned hleft)
    next _ hnot => exact plain_comes hcomparison hroom hdepth h fun offset rest' => hnot room offset rest' rfl

/-! ## Arguments -/

section
variable {start entered : Nat} {before : List Expr}

theorem step_comma (h : Left ms stop i (t :: rest)) (ht : t.token = .comma) :
    step ms ⟨i, d, ⟨entered, .arguments start before⟩ :: stack, .back e⟩ =
      .ok ⟨i + 1, d, ⟨entered, .arguments start (before ++ [e])⟩ :: stack, .call (.series .disjunction)⟩ := by
  have hadvance : advance ms ⟨i, d, stack, .back e⟩ = .ok (some t.token, ⟨i + 1, d, stack, .back e⟩) :=
    advance_eq h
  simp only [step, resume, hadvance, ht, ok_bind]
  rfl

theorem step_close (h : Left ms stop i (t :: rest)) (ht : t.token = .rparen) :
    step ms ⟨i, d, ⟨entered, .arguments start before⟩ :: stack, .back e⟩ =
      .ok ⟨i + 1, d, stack, .backArguments (before ++ [e])⟩ := by
  have hadvance : advance ms ⟨i, d, stack, .back e⟩ = .ok (some t.token, ⟨i + 1, d, stack, .back e⟩) :=
    advance_eq h
  simp only [step, resume, hadvance, ht, ok_bind]
  rfl

theorem step_openCall (h : Left ms stop i rest) (hcomma : ∀ offset rest', rest ≠ ⟨offset, .comma⟩ :: rest')
    (hclose : ∀ offset rest', rest ≠ ⟨offset, .rparen⟩ :: rest') :
    step ms ⟨i, d, ⟨entered, .arguments start before⟩ :: stack, .back e⟩ = malformed start .openCall := by
  cases rest with
  | nil =>
    have hadvance : advance ms ⟨i, d, stack, .back e⟩ = .ok (none, ⟨i, d, stack, .back e⟩) := advance_end h
    simp only [step, resume, hadvance, ok_bind]
  | cons t rest =>
    have hadvance : advance ms ⟨i, d, stack, .back e⟩ =
        .ok (some t.token, ⟨i + 1, d, stack, .back e⟩) := advance_eq h
    simp only [step, resume, hadvance, ok_bind]
    obtain ⟨offset, token⟩ := t
    cases token with
    | comma => exact absurd rfl (hcomma offset rest)
    | rparen => exact absurd rfl (hclose offset rest)
    | _ => rfl

/-- A reader takes at least one token. -/
def Takes (reader : Nat → Expr.Reader) : Prop :=
  ∀ ⦃room ts e rest⦄, reader room ts = .ok (e, rest) → rest.length < ts.length

theorem takes_nested (stop bound : Nat) : Takes (Expr.nested stop bound) := by
  intro room ts e rest h
  obtain ⟨w, read, hderives, -, rfl, hread⟩ := Expr.soundNested_nested stop bound (d := 0) h
  have hlength := hread.length_eq
  have hpos := List.length_pos_of_ne_nil hderives.ne_nil
  rw [List.length_append]
  omega

/-- A call in an argument list comes back with the arguments so far and those that are read. -/
theorem arguments_comes (hinner : Follows ms stop bound (.series .disjunction) inner) (htakes : Takes inner)
    (hroom : room ≤ bound) (hdepth : d + room = maxDepth) (h : Left ms stop i rest) {limit : Nat}
    (hlimit : rest.length < limit) :
    Comes ms stop (fun es => .backArguments (before ++ es)) d stack
      ⟨i, d, ⟨entered, .arguments start before⟩ :: stack, .call (.series .disjunction)⟩
      (Expr.arguments start (inner room) limit rest) := by
  induction limit generalizing i rest before with
  | zero => cases hlimit
  | succ limit ih =>
    refine .bind (hinner hroom hdepth h) ?_
    intro e rest' i' he hleft
    -- the argument has taken a token, so that the limit stays above what is left
    have hless := htakes he
    dsimp only
    split
    next comma rest'' =>
      rw [List.length_cons] at hless
      refine .of_step (step_comma hleft rfl) (.bind (ih hleft.next (by omega)) ?_)
      intro es last i'' _ hleft'
      have hsame : before ++ [e] ++ es = before ++ e :: es := by
        rw [List.append_assoc, List.singleton_append]
      dsimp only
      rw [hsame]
      exact .returned hleft'
    next closing rest'' => exact .of_step (step_close hleft rfl) (.returned hleft.next)
    next hcomma hclose => exact .fault (step_openCall hleft hcomma hclose)

/-! ## Primaries -/

variable {name : String} {offset : Nat}

/-- The value of a literal. -/
def literal? : Token → Option Value
  | .num n => some (.num n)
  | .str s => some (.str s)
  | .true => some (.bool true)
  | .false => some (.bool false)
  | _ => none

theorem step_literal {v : Value} (h : Left ms stop i (t :: rest)) (ht : literal? t.token = some v) :
    step ms ⟨i, d, stack, .call .primary⟩ = .ok ⟨i + 1, d, stack, .back (.lit v)⟩ := by
  have hposition := position_eq (s := ⟨i, d, stack, .call .primary⟩) h
  have hadvance := advance_eq (s := ⟨i, d, stack, .call .primary⟩) h
  simp only [step, call, hposition, hadvance, ok_bind]
  obtain ⟨offset, token⟩ := t
  cases token <;> cases ht <;> rfl

theorem step_var (h : Left ms stop i (⟨offset, .ident name⟩ :: rest))
    (hparen : ∀ offset rest', rest ≠ ⟨offset, .lparen⟩ :: rest') :
    step ms ⟨i, d, stack, .call .primary⟩ = .ok ⟨i + 1, d, stack, .back (.var name)⟩ := by
  have hposition := position_eq (s := ⟨i, d, stack, .call .primary⟩) h
  have hadvance := advance_eq (s := ⟨i, d, stack, .call .primary⟩) h
  have hpeek := peek_eq (s := ⟨i + 1, d, stack, .call .primary⟩) h.next
  simp only [step, call, hposition, hadvance, hpeek, ok_bind]
  cases rest with
  | nil => rfl
  | cons t rest =>
    obtain ⟨offset, token⟩ := t
    cases token with
    | lparen => exact absurd rfl (hparen offset rest)
    | _ => rfl

theorem step_call {offset' : Nat} (h : Left ms stop i (⟨offset, .ident name⟩ :: ⟨offset', .lparen⟩ :: rest)) :
    step ms ⟨i, d, stack, .call .primary⟩ =
      .ok ⟨i + 1 + 1, d, ⟨i, .call name⟩ :: stack, .call (.arguments offset)⟩ := by
  have hposition := position_eq (s := ⟨i, d, stack, .call .primary⟩) h
  have hadvance := advance_eq (s := ⟨i, d, stack, .call .primary⟩) h
  have hpeek := peek_token (s := ⟨i + 1, d, stack, .call .primary⟩) h.next
  have hadvance' := advance_eq (s := ⟨i + 1, d, stack, .call .primary⟩) h.next
  simp only [step, call, hposition, hadvance, hpeek, hadvance', ok_bind]
  rfl

theorem step_arguments_nil (h : Left ms stop i (⟨offset, .rparen⟩ :: rest)) :
    step ms ⟨i, d, stack, .call (.arguments start)⟩ = .ok ⟨i + 1, d, stack, .backArguments []⟩ := by
  have hpeek := peek_token (s := ⟨i, d, stack, .call (.arguments start)⟩) h
  have hadvance := advance_eq (s := ⟨i, d, stack, .call (.arguments start)⟩) h
  simp only [step, call, hpeek, hadvance, ok_bind]
  rfl

theorem step_arguments (h : Left ms stop i rest) (hclose : ∀ offset rest', rest ≠ ⟨offset, .rparen⟩ :: rest') :
    step ms ⟨i, d, stack, .call (.arguments start)⟩ =
      .ok ⟨i, d, ⟨i, .arguments start []⟩ :: stack, .call (.series .disjunction)⟩ := by
  have hpeek := peek_eq (s := ⟨i, d, stack, .call (.arguments start)⟩) h
  simp only [step, call, hpeek, ok_bind]
  cases rest with
  | nil => rfl
  | cons t rest =>
    obtain ⟨offset, token⟩ := t
    cases token with
    | rparen => exact absurd rfl (hclose offset rest)
    | _ => rfl

theorem step_paren (h : Left ms stop i (⟨offset, .lparen⟩ :: rest)) :
    step ms ⟨i, d, stack, .call .primary⟩ =
      .ok ⟨i + 1, d, ⟨i, .paren offset⟩ :: stack, .call (.series .disjunction)⟩ := by
  have hposition := position_eq (s := ⟨i, d, stack, .call .primary⟩) h
  have hadvance := advance_eq (s := ⟨i, d, stack, .call .primary⟩) h
  simp only [step, call, hposition, hadvance, ok_bind]
  rfl

theorem step_closed (h : Left ms stop i (⟨offset, .rparen⟩ :: rest)) :
    step ms ⟨i, d, ⟨n, .paren start⟩ :: stack, .back e⟩ = .ok ⟨i + 1, d, stack, .back e⟩ := by
  have hadvance := advance_eq (s := ⟨i, d, stack, .back e⟩) h
  simp only [step, resume, hadvance, ok_bind]
  rfl

theorem step_openParen (h : Left ms stop i rest) (hclose : ∀ offset rest', rest ≠ ⟨offset, .rparen⟩ :: rest') :
    step ms ⟨i, d, ⟨n, .paren start⟩ :: stack, .back e⟩ = malformed start .openParen := by
  cases rest with
  | nil =>
    have hadvance := advance_end (s := ⟨i, d, stack, .back e⟩) h
    simp only [step, resume, hadvance, ok_bind]
  | cons t rest =>
    have hadvance := advance_eq (s := ⟨i, d, stack, .back e⟩) h
    simp only [step, resume, hadvance, ok_bind]
    obtain ⟨offset, token⟩ := t
    cases token with
    | rparen => exact absurd rfl (hclose offset rest)
    | _ => rfl

theorem step_endOfText (h : Left ms stop i []) :
    step ms ⟨i, d, stack, .call .primary⟩ = malformed stop .endOfText := by
  have hposition := position_eq (s := ⟨i, d, stack, .call .primary⟩) h
  have hadvance := advance_end (s := ⟨i, d, stack, .call .primary⟩) h
  simp only [step, call, hposition, hadvance, ok_bind]
  rfl

theorem step_noValue {token : Token} (h : Left ms stop i (⟨offset, token⟩ :: rest))
    (hliteral : literal? token = none) (hident : ∀ name, token ≠ .ident name) (hparen : token ≠ .lparen) :
    step ms ⟨i, d, stack, .call .primary⟩ = malformed offset (.noValue token) := by
  have hposition := position_eq (s := ⟨i, d, stack, .call .primary⟩) h
  have hadvance := advance_eq (s := ⟨i, d, stack, .call .primary⟩) h
  simp only [step, call, hposition, hadvance, ok_bind]
  cases token with
  | num | str | true | false => cases hliteral
  | ident name => exact absurd rfl (hident name)
  | lparen => exact absurd rfl hparen
  | _ => rfl

theorem follows_primary (hinner : Follows ms stop bound (.series .disjunction) inner) (htakes : Takes inner) :
    Follows ms stop bound .primary fun room => Expr.primary stop (inner room) := by
  intro room i d stack rest hroom hdepth h
  dsimp only
  unfold Expr.primary
  split
  next => exact .fault (step_endOfText h)
  next => exact .of_step (step_literal h rfl) (.returned h.next)
  next => exact .of_step (step_literal h rfl) (.returned h.next)
  next => exact .of_step (step_literal h rfl) (.returned h.next)
  next => exact .of_step (step_literal h rfl) (.returned h.next)
  next offset name rest =>
    split
    next opening closing rest =>
      refine .of_step (step_call h) (.of_step (step_arguments_nil h.next.next) ?_)
      exact .of_step rfl (.returned h.next.next.next)
    next opening rest hclose =>
      refine .of_step (step_call h) (.of_step (step_arguments h.next.next hclose) ?_)
      refine .bind (arguments_comes hinner htakes hroom hdepth h.next.next (Nat.lt_succ_self _)) ?_
      intro es rest' i' _ hleft
      exact .of_step rfl (.returned hleft)
    next _ hparen => exact .of_step (step_var h hparen) (.returned h.next)
  next offset rest =>
    refine .of_step (step_paren h) (.bind (hinner hroom hdepth h.next) ?_)
    intro e rest' i' _ hleft
    dsimp only
    split
    next closing rest'' => exact .of_step (step_closed hleft) (.returned hleft.next)
    next hclose => exact .fault (step_openParen hleft hclose)
  next offset token rest hnum hstr htrue hfalse hident hparen =>
    have hliteral : literal? token = none := by
      unfold literal?
      split
      · exact (hnum _ rfl).elim
      · exact (hstr _ rfl).elim
      · exact (htrue rfl).elim
      · exact (hfalse rfl).elim
      · rfl
    exact .fault (step_noValue h hliteral hident hparen)

end

/-! ## Disjunctions -/

theorem step_full (h : Left ms stop i rest) (hd : maxDepth ≤ d) :
    step ms ⟨i, d, stack, .call (.series .disjunction)⟩ =
      malformed (Expr.position stop rest) .tooDeep := by
  have henter := enter_full (s := ⟨i, d, stack, .call (.series .disjunction)⟩) h hd
  simp only [step, call, enterSeries, henter]
  rfl

theorem follows_nested (ms : List Mark) (stop bound : Nat) :
    Follows ms stop bound (.series .disjunction) (Expr.nested stop bound) := by
  induction bound with
  | zero =>
    intro room i d stack rest hroom hdepth h
    obtain rfl := Nat.le_zero.mp hroom
    exact .fault (step_full h (Nat.le_of_eq hdepth.symm))
  | succ bound ih =>
    intro room i d stack rest hroom hdepth h
    cases room with
    | zero => exact .fault (step_full h (Nat.le_of_eq hdepth.symm))
    | succ room =>
      have hprimary := follows_primary ih (takes_nested stop bound)
      have hconjunction := follows_conjunction (follows_negation (follows_comparison hprimary))
      have hless : d + 1 + room = maxDepth := by omega
      have henter : enter ms ⟨i, d, stack, .call (.series .disjunction)⟩ =
          .ok ⟨i, d + 1, stack, .call (.series .disjunction)⟩ := enter_eq (show d < maxDepth by omega)
      exact series_comes (c := .disjunction) hconjunction (Nat.le_of_succ_le_succ hroom) hless h henter

/-! ## Whole texts -/

theorem finish_ok (h : Left ms stop i []) : step ms ⟨i, d, [], .back e⟩ = .error (.answer (.ok e)) := by
  have hpeek := peek_eq (s := ⟨i, d, [], .back e⟩) h
  have hposition := position_eq (s := ⟨i, d, [], .back e⟩) h
  simp only [step, finish, hpeek, hposition, ok_bind]
  rfl

theorem finish_fault {fault : Fault} (h : Left ms stop i (t :: rest))
    (hfault : fault = if t.token = .rparen then .strayClose else .extra t.token) :
    step ms ⟨i, d, [], .back e⟩ = malformed t.offset fault := by
  have hpeek := peek_token (s := ⟨i, d, [], .back e⟩) h
  have hposition := position_eq (s := ⟨i, d, [], .back e⟩) h
  subst hfault
  simp only [step, finish, hpeek, hposition, ok_bind]
  obtain ⟨offset, token⟩ := t
  cases token <;> rfl

/-- The machine reads what the reader of whole texts reads. -/
theorem step_answers (stop : Nat) (ts : List Placed) :
    Answers (step (marked stop ts)) start (Expr.ofTokens stop ts) := by
  have h : Left (marked stop ts) stop 0 ts := rfl
  unfold Expr.ofTokens
  split
  next hempty =>
    obtain rfl := List.isEmpty_iff.mp hempty
    exact .stop rfl
  next hsome =>
    obtain ⟨t, ts, rfl⟩ := List.exists_cons_of_ne_nil fun hnil => hsome (List.isEmpty_iff.mpr hnil)
    have hcomes : Comes (marked stop (t :: ts)) stop .back 0 [] ⟨0, 0, [], .call (.series .disjunction)⟩
        (Expr.nested stop maxDepth maxDepth (t :: ts)) :=
      follows_nested _ stop maxDepth (Nat.le_refl _) (Nat.zero_add maxDepth) h
    have hbegin : step (marked stop (t :: ts)) start =
      .ok ⟨0, 0, [], .call (.series .disjunction)⟩ := rfl
    refine .of_step hbegin ?_
    cases hread : Expr.nested stop maxDepth maxDepth (t :: ts) with
    | error m =>
      rw [hread] at hcomes
      exact hcomes
    | ok read =>
      obtain ⟨e, rest⟩ := read
      rw [hread] at hcomes
      obtain ⟨i, hleft, hreaches⟩ := hcomes
      refine .of_reaches hreaches ?_
      rw [ok_bind]
      dsimp only
      split
      next => exact .stop (finish_ok hleft)
      next => exact .stop (finish_fault hleft rfl)
      next hclose => exact .stop (finish_fault hleft (if_neg hclose).symm)

/-- Wherever a descent has come, it keeps to the tokens and to the depth, it can go on or stop, and a
function that is called within a call of its own has gone past a token. -/
structure Sound (ms : List Mark) (s : State) : Prop extends Kept ms s where
  inPlace : step ms s ≠ .error .outOfPlace
  later : s.calls.Pairwise fun inner outer =>
    inner.routine.rank = outer.routine.rank → outer.entered < inner.entered

theorem always_sound (stop : Nat) (ts : List Placed) :
    Always (step (marked stop ts)) start (Sound (marked stop ts)) := by
  intro s h
  have hpos : 0 < (marked stop ts).length := by simp [marked]
  have hkept := kept_of_reaches (ended_marked stop ts) hpos h
  exact { hkept with inPlace := (step_answers stop ts).ne_outOfPlace h, later := hkept.later }

end Descent

open Token

/-- Scanning a text keeps to the boundaries between its characters, each pass of the loop takes up at least
one byte, and the scan comes to the tokens of the text or to a fault. Reading the tokens keeps to them and
to the depth, and comes to what `parse` gives, which is an expression or a fault. -/
theorem parse_safe (text : String) :
    Always (ByteScan.step text) ByteScan.start (ByteScan.Sound text) ∧
    Answers (ByteScan.step text) ByteScan.start (marks text) ∧
    match marks text with
    | .error m => Expr.parse text = .error m
    | .ok ms =>
      Always (Descent.step ms) Descent.start (Descent.Sound ms) ∧
      Answers (Descent.step ms) Descent.start (Expr.parse text) := by
  refine ⟨ByteScan.always_sound text, ByteScan.step_answers text, ?_⟩
  split
  next m hm => exact bind_eq_error.mpr (.inl (marks_eq_error_iff.mp hm))
  next ms hms =>
    obtain ⟨ts, hts, rfl⟩ := marks_eq_ok_iff.mp hms
    have hparse : Expr.parse text = Expr.ofTokens text.utf8ByteSize ts := by
      rw [Expr.parse, hts]
      rfl
    rw [hparse]
    exact ⟨Descent.always_sound _ ts, Descent.step_answers _ ts⟩

end StageFlow
