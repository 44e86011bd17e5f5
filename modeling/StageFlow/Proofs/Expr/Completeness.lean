import StageFlow.Expr.Eval
import StageFlow.Proofs.Expr.Soundness

/-!
# Completeness of reading

Tokens that derive a phrase are read as the expression that they derive, if the reader has the room that
their depth asks for and if what follows does not go on with the phrase (`Derives.accepted`). Together
with soundness the grammar says exactly what is read. Since a reader has one answer, tokens derive at
most one expression (`Derives.unique`).
-/

namespace StageFlow.Expr

/-! ## Splitting tokens -/

namespace Spells

variable {l : Leaf} {ts : List Placed} {w w' : List Leaf}

theorem of_nil (H : Spells ts []) : ts = [] := List.map_eq_nil_iff.mp H

theorem of_cons (H : Spells ts (l :: w)) :
    ∃ offset ts', ts = ⟨offset, l.token⟩ :: ts' ∧ Spells ts' w := by
  obtain ⟨⟨offset, token⟩, ts', rfl, rfl, hts'⟩ := List.map_eq_cons_iff.mp H
  exact ⟨offset, ts', rfl, hts'⟩

theorem of_append (H : Spells ts (w ++ w')) :
    ∃ ts₁ ts₂, ts = ts₁ ++ ts₂ ∧ Spells ts₁ w ∧ Spells ts₂ w' := by
  rw [Spells, List.map_append] at H
  exact List.map_eq_append_iff.mp H

theorem of_singleton (H : Spells ts [l]) : ∃ offset, ts = [⟨offset, l.token⟩] := by
  obtain ⟨offset, ts', rfl, H'⟩ := H.of_cons
  obtain rfl := H'.of_nil
  exact ⟨offset, rfl⟩

theorem of_concat (H : Spells ts (w ++ [l])) :
    ∃ ts' offset, ts = ts' ++ [⟨offset, l.token⟩] ∧ Spells ts' w := by
  obtain ⟨ts₁, ts₂, rfl, H₁, H₂⟩ := H.of_append
  obtain ⟨offset, rfl⟩ := H₂.of_singleton
  exact ⟨ts₁, offset, rfl, H₁⟩

theorem length_eq (H : Spells ts w) : ts.length = w.length := by
  simpa using congrArg List.length H

end Spells

/-! ## What follows a phrase -/

/-- The series that more operators can go on with after the phrase. -/
def Phrase.goesOn : Phrase → List Series
  | .primary | .links .comparison _ => []
  | .negation | .series .comparison | .links .conjunction _ => [.comparison]
  | .series .conjunction | .links .disjunction _ => [.comparison, .conjunction]
  | .series .disjunction => [.comparison, .conjunction, .disjunction]

/-- The phrase has come to its end: what follows is neither an argument list nor an operator that the
phrase goes on with. -/
def Phrase.Ends (p : Phrase) (rest : List Placed) : Prop :=
  ∀ t ∈ rest.head?, t.token ≠ .lparen ∧ ∀ s ∈ p.goesOn, s.join? t.token = none

section
variable {p q : Phrase} {s : Series} {n : Nat} {t : Placed} {rest : List Placed}
  {op : Token} {join : Expr → Expr → Expr}

theorem Phrase.Ends.nil : p.Ends [] := nofun

theorem Phrase.Ends.mono (h : p.Ends rest) (hpq : ∀ s ∈ q.goesOn, s ∈ p.goesOn) : q.Ends rest :=
  fun t ht => ⟨(h t ht).1, fun s hs => (h t ht).2 s (hpq s hs)⟩

theorem Phrase.ends_of_closing (h : t.token = .rparen ∨ t.token = .comma) : p.Ends (t :: rest) := by
  intro t' ht'
  obtain rfl : t = t' := Option.some.inj ht'
  rcases h with h | h <;> rw [h] <;> exact ⟨nofun, fun s _ => by cases s <;> rfl⟩

/-- The operands of a series end at its operators. -/
theorem Joins.ends_operand (h : Joins s op join) (ht : t.token = op) :
    (Phrase.links s n).Ends (t :: rest) := by
  intro t' ht'
  obtain rfl : t = t' := Option.some.inj ht'
  rw [ht]
  cases h <;> exact ⟨nofun, by simp [Phrase.goesOn, Series.join?, comparisonJoin?, andJoin?,
    Comparison.ofToken?]⟩

theorem Phrase.Ends.operand (h : (Phrase.links s n).Ends rest) : s.operand.Ends rest := by
  cases s <;> exact h

theorem Phrase.Ends.links (h : (Phrase.series s).Ends rest) : (Phrase.links s n).Ends rest :=
  h.mono (by cases s <;> simp [Phrase.goesOn])

theorem chain_of_ends {stop room : Nat} {operand : Nat → Reader} {e : Expr}
    (h : (Phrase.series s).Ends rest) : chain stop s.join? operand room e rest = .ok (e, rest) := by
  cases rest with
  | nil => cases room <;> rfl
  | cons t rest =>
    have hnone : s.join? t.token = none :=
      (h t rfl).2 s (by cases s <;> simp [Phrase.goesOn])
    cases room <;> simp [chain, hnone]

end

/-! ## Readers of phrases -/

/-- The reader of a phrase. -/
def Phrase.reader (stop : Nat) (inner : Nat → Reader) : Phrase → Nat → Reader
  | .primary => fun room => Expr.primary stop (inner room)
  | .negation => Expr.negation stop inner
  | .series .comparison | .links .comparison _ => comparison stop inner
  | .series .conjunction | .links .conjunction _ => conjunction stop inner
  | .series .disjunction | .links .disjunction _ => disjunction stop inner

/-- The reader reads an expression up to `rest`; of a series that may go on it reads what there is, and
each operator has cost it room. -/
def Phrase.Accepts (stop : Nat) (inner : Nat → Reader) (p : Phrase) (room : Nat)
    (ts rest : List Placed) (e : Expr) : Prop :=
  match p with
  | .links s n => n ≤ room ∧ p.reader stop inner room ts =
      chain stop s.join? (s.operand.reader stop inner) (room - n) e rest
  | _ => p.reader stop inner room ts = .ok (e, rest)

/-- However they are placed, the tokens of a derivation are accepted wherever the phrase ends. -/
def Accepted (p : Phrase) (d : Nat) (w : List Leaf) (e : Expr) : Prop :=
  ∀ stop rest ⦃bound room ts⦄, room ≤ bound → Within (d + room) w → Spells ts w → p.Ends rest →
    p.Accepts stop (nested stop bound) room (ts ++ rest) rest e

variable {stop bound room d : Nat} {inner : Nat → Reader} {s : Series} {ts rest : List Placed}
  {w : List Leaf} {e : Expr}

theorem series_reader : (Phrase.series s).reader stop inner =
    s.read stop (s.operand.reader stop inner) := by
  cases s with
  | comparison => exact comparison_eq stop inner
  | conjunction => exact conjunction_eq stop inner
  | disjunction => exact disjunction_eq stop inner

theorem links_reader {n : Nat} : (Phrase.links s n).reader stop inner =
    s.read stop (s.operand.reader stop inner) := by
  rw [← series_reader]
  cases s <;> rfl

theorem Phrase.Accepts.operand (h : s.operand.Accepts stop inner room ts rest e) :
    s.operand.reader stop inner room ts = .ok (e, rest) := by
  cases s <;> exact h

/-- A disjunction is nested one level deeper than what it stands in. -/
theorem nested_eq_ok (stop : Nat) (rest : List Placed)
    (h : Derives (.series .disjunction) (d + 1) w e)
    (H : Accepted (.series .disjunction) (d + 1) w e) (hroom : room ≤ bound)
    (hw : Within (d + room) w) (hts : Spells ts w)
    (hends : (Phrase.series .disjunction).Ends rest) :
    nested stop bound room (ts ++ rest) = .ok (e, rest) := by
  obtain ⟨room, rfl, hw'⟩ := h.exists_room hw
  obtain ⟨bound, rfl⟩ : ∃ b, bound = b + 1 := ⟨bound - 1, by omega⟩
  exact H stop rest (Nat.le_of_succ_le_succ hroom) hw' hts hends

/-! ## Primaries -/

theorem primary_var (stop : Nat) {start : Nat} {name : String} {inner : Reader}
    (h : Phrase.primary.Ends rest) :
    primary stop inner (⟨start, .ident name⟩ :: rest) = .ok (.var name, rest) := by
  rw [primary]
  · rintro opening closing rest' rfl
    exact (h _ rfl).1 rfl
  · rintro opening rest' rfl
    exact (h _ rfl).1 rfl

theorem primary_call (stop : Nat) {start opening : Nat} {name : String} {inner : Reader}
    {es : List Expr} (hts : ∀ t ∈ ts.head?, t.token ≠ .rparen)
    (h : arguments start inner (ts.length + 1) ts = .ok (es, rest)) :
    primary stop inner (⟨start, .ident name⟩ :: ⟨opening, .lparen⟩ :: ts) =
      .ok (.call name es, rest) := by
  rw [primary]
  · exact bind_eq_ok.mpr ⟨_, h, rfl⟩
  · rintro closing ts' rfl
    exact hts _ rfl rfl

theorem primary_paren (stop : Nat) {start close : Nat} {inner : Reader}
    (h : inner ts = .ok (e, ⟨close, .rparen⟩ :: rest)) :
    primary stop inner (⟨start, .lparen⟩ :: ts) = .ok (e, rest) := by
  rw [primary]
  exact bind_eq_ok.mpr ⟨_, h, rfl⟩

/-- An expression that can stand as an argument in the given room. -/
def Fits (d room : Nat) (a : List Leaf × Expr) : Prop :=
  Derives (.series .disjunction) (d + 1) a.1 a.2 ∧ Accepted (.series .disjunction) (d + 1) a.1 a.2 ∧
    Within (d + room) a.1

theorem arguments_eq_ok {start close limit : Nat} {args : List (List Leaf × Expr)} (hne : args ≠ [])
    (hargs : ∀ a ∈ args, Fits d room a) (hroom : room ≤ bound) (hlimit : args.length ≤ limit)
    (hts : Spells ts (separated (d + 1) (args.map Prod.fst))) :
    arguments start (nested stop bound room) limit (ts ++ ⟨close, .rparen⟩ :: rest) =
      .ok (args.map Prod.snd, rest) := by
  induction args generalizing ts limit with
  | nil => exact (hne rfl).elim
  | cons a args ih =>
    obtain ⟨limit, rfl⟩ := Nat.exists_eq_add_one.mpr (Nat.lt_of_lt_of_le (Nat.succ_pos _) hlimit)
    obtain ⟨⟨hderives, haccepted, hw⟩, hargs⟩ := List.forall_mem_cons.mp hargs
    cases args with
    | nil =>
      have hread := nested_eq_ok stop (⟨close, .rparen⟩ :: rest)
        hderives haccepted hroom hw hts (Phrase.ends_of_closing (.inl rfl))
      rw [arguments, hread]
      rfl
    | cons a' args =>
      obtain ⟨ts₁, ts', rfl, hts₁, hts'⟩ := hts.of_append
      obtain ⟨comma, ts₂, rfl, hts₂⟩ := hts'.of_cons
      have hread := nested_eq_ok stop (⟨comma, .comma⟩ :: (ts₂ ++ ⟨close, .rparen⟩ :: rest))
        hderives haccepted hroom hw hts₁ (Phrase.ends_of_closing (.inr rfl))
      have hmore := ih (List.cons_ne_nil _ _) hargs (Nat.le_of_succ_le_succ hlimit) hts₂
      rw [List.append_assoc, List.cons_append, arguments]
      exact bind_eq_ok.mpr ⟨_, hread, bind_eq_ok.mpr ⟨_, hmore, rfl⟩⟩

/-- There are no more arguments than tokens in their words. -/
theorem length_le_separated {ws : List (List Leaf)} (h : ∀ w ∈ ws, w ≠ []) :
    ws.length ≤ (separated d ws).length := by
  induction ws using separated.induct with
  | case1 => exact Nat.le_refl 0
  | case2 w => exact List.length_pos_of_ne_nil (h w List.mem_cons_self)
  | case3 w w' ws ih =>
    have hrest := ih fun v hv => h v (List.mem_cons_of_mem _ hv)
    simp only [separated, List.length_append, List.length_cons] at hrest ⊢
    omega

/-- Arguments do not start with a closing parenthesis. -/
theorem head_ne_rparen (rest : List Placed) {ws : List (List Leaf)}
    (h : Derives (.series .disjunction) (d + 1) w e) (hts : Spells ts (separated (d + 1) (w :: ws))) :
    ∀ t ∈ (ts ++ rest).head?, t.token ≠ .rparen := by
  obtain ⟨t, tl, hw, ht, -⟩ := h.head
  obtain ⟨tl', hseparated⟩ := exists_separated_eq_cons (d + 1) hw ws
  rw [hseparated] at hts
  obtain ⟨offset, ts', rfl, -⟩ := hts.of_cons
  intro t' ht'
  obtain rfl := Option.some.inj ht'
  exact ht

theorem accepted_call {name : String} {args : List (List Leaf × Expr)}
    (hargs : ∀ a ∈ args, Derives (.series .disjunction) (d + 1) a.1 a.2)
    (haccepted : ∀ a ∈ args, Accepted (.series .disjunction) (d + 1) a.1 a.2) :
    Accepted .primary d (⟨.ident name, d⟩ :: ⟨.lparen, d⟩ ::
      (separated (d + 1) (args.map Prod.fst) ++ [⟨.rparen, d⟩])) (.call name (args.map Prod.snd)) := by
  intro stop rest bound room ts hroom hw hts _
  obtain ⟨start, ts', rfl, hts'⟩ := hts.of_cons
  obtain ⟨opening, ts'', rfl, hts''⟩ := hts'.of_cons
  obtain ⟨read, close, rfl, hread⟩ := hts''.of_concat
  have hwithin := (Within.append_iff.mp (Within.cons_iff.mp (Within.cons_iff.mp hw).2).2).1
  rw [List.cons_append, List.cons_append, List.append_assoc]
  cases args with
  | nil =>
    obtain rfl := hread.of_nil
    rfl
  | cons a args =>
    have hfits : ∀ a' ∈ a :: args, Fits d room a' := fun a' ha' =>
      ⟨hargs a' ha', haccepted a' ha', hwithin.of_separated a'.1 (List.mem_map_of_mem ha')⟩
    have hlength : (a :: args).length ≤ (read ++ ⟨close, .rparen⟩ :: rest).length + 1 := by
      have hne : ∀ w ∈ (a :: args).map Prod.fst, w ≠ [] :=
        List.forall_mem_map.mpr fun a ha => (hargs a ha).ne_nil
      have hle := length_le_separated (d := d + 1) hne
      rw [← hread.length_eq, List.length_map] at hle
      rw [List.length_append]
      omega
    have hopen := head_ne_rparen (⟨close, .rparen⟩ :: rest) (hargs a List.mem_cons_self) hread
    exact primary_call stop hopen
      (arguments_eq_ok (List.cons_ne_nil a args) hfits hroom hlength hread)

/-! ## Derivations -/

theorem negation_of_ne_not {t : Placed} (h : t.token ≠ .not) :
    negation stop inner room (t :: ts) = comparison stop inner room (t :: ts) := by
  rw [negation]
  · rintro start ts' - ⟨⟩
    exact h rfl
  · rintro room start ts' - ⟨⟩
    exact h rfl

/-- By induction on the derivation, for all rooms and for all that may follow: an operand has less room
than its series, and is followed by the operators of the series. -/
theorem Derives.accepted {p : Phrase} (h : Derives p d w e) : Accepted p d w e := by
  induction h with
  | num | str | true | false =>
    intro stop rest bound room ts _ _ hts _
    obtain ⟨start, rfl⟩ := hts.of_singleton
    rfl
  | var =>
    intro stop rest bound room ts _ _ hts hends
    obtain ⟨start, rfl⟩ := hts.of_singleton
    exact primary_var stop hends
  | call name args hargs ih => exact accepted_call hargs ih
  | paren inner ih =>
    intro stop rest bound room ts hroom hw hts _
    obtain ⟨start, ts', rfl, hts'⟩ := hts.of_cons
    obtain ⟨read, close, rfl, hread⟩ := hts'.of_concat
    have hwithin := (Within.append_iff.mp (Within.cons_iff.mp hw).2).1
    have hinner := nested_eq_ok stop (⟨close, .rparen⟩ :: rest) inner ih hroom hwithin hread
      (Phrase.ends_of_closing (.inl rfl))
    rw [List.cons_append, List.append_assoc]
    exact primary_paren stop hinner
  | @not d w e operand ih =>
    intro stop rest bound room ts hroom hw hts hends
    obtain ⟨start, ts', rfl, hts'⟩ := hts.of_cons
    obtain ⟨room, rfl, hwithin⟩ := operand.exists_room (Within.cons_iff.mp hw).2
    have hread : negation stop (nested stop bound) room (ts' ++ rest) = .ok (e, rest) :=
      ih stop rest (Nat.le_of_succ_le hroom) hwithin hts' hends
    exact bind_eq_ok.mpr ⟨_, hread, rfl⟩
  | plain comparison ih =>
    intro stop rest bound room ts hroom hw hts hends
    have hread := ih stop rest hroom hw hts hends
    obtain ⟨t, tl, rfl, -, ht⟩ := comparison.head
    obtain ⟨start, ts', rfl, -⟩ := hts.of_cons
    exact (negation_of_ne_not (ht rfl)).trans hread
  | first operand ih =>
    intro stop rest bound room ts hroom hw hts hends
    have hread := (ih stop rest hroom hw hts hends.operand).operand
    refine ⟨Nat.zero_le _, ?_⟩
    rw [links_reader, Series.read, hread]
    rfl
  | @next s n d w l op join w' r left joins right ihl ihr =>
    intro stop rest bound room ts hroom hw hts hends
    obtain ⟨ts₁, ts', rfl, hts₁, hts'⟩ := hts.of_append
    obtain ⟨offset, ts₂, rfl, hts₂⟩ := hts'.of_cons
    obtain ⟨hw₁, hw'⟩ := Within.append_iff.mp hw
    have hw₂ := (Within.cons_iff.mp hw').2
    have hd := right.depth_le hw₂
    obtain ⟨hn, hleft⟩ := ihl stop (⟨offset, op⟩ :: (ts₂ ++ rest)) hroom hw₁ hts₁
      (joins.ends_operand rfl)
    -- the operators to the left have taken `n`, and this one takes the next from the right side
    obtain ⟨room', hroom'⟩ : ∃ r, room - n = r + 1 := ⟨room - n - 1, by omega⟩
    have hbound : room' ≤ bound := by omega
    have hdeeper : d + room = d + n + 1 + room' := by omega
    have hright := (ihr stop rest hbound (hdeeper ▸ hw₂) hts₂ hends.operand).operand
    have hjoin := Series.join?_eq_some_iff.mpr joins
    refine ⟨by omega, ?_⟩
    rw [links_reader] at hleft ⊢
    rw [List.append_assoc, List.cons_append, hleft, hroom', show room - (n + 1) = room' by omega]
    simp only [chain, hjoin, hright]
    rfl
  | series links ih =>
    intro stop rest bound room ts hroom hw hts hends
    obtain ⟨-, hread⟩ := ih stop rest hroom hw hts hends.links
    rw [chain_of_ends hends, links_reader, ← series_reader] at hread
    exact hread

/-! ## Whole texts -/

/-- Reading all tokens of a text amounts to deriving an expression from them within the depth limit. -/
theorem ofTokens_eq_ok_iff : ofTokens stop ts = .ok e ↔
    ∃ w, Derives (.series .disjunction) 1 w e ∧ Spells ts w ∧ Within maxDepth w := by
  refine ⟨reads_of_ofTokens, ?_⟩
  rintro ⟨w, hderives, hts, hw⟩
  have hread := nested_eq_ok (d := 0) stop [] hderives hderives.accepted
    (Nat.le_refl maxDepth) ((Nat.zero_add maxDepth).symm ▸ hw) hts Phrase.Ends.nil
  rw [List.append_nil] at hread
  obtain ⟨t, tl, rfl, -⟩ := hderives.head
  obtain ⟨start, ts', rfl, -⟩ := hts.of_cons
  exact bind_eq_ok.mpr ⟨_, hread, rfl⟩

theorem exists_within (w : List Leaf) : ∃ limit, Within limit w :=
  ⟨(w.map Leaf.depth).sum, fun _ ht => List.le_sum_of_mem (List.mem_map_of_mem ht)⟩

/-- Tokens derive at most one expression. -/
theorem Derives.unique {w' : List Leaf} {e' : Expr} (h : Derives (.series .disjunction) (d + 1) w e)
    (h' : Derives (.series .disjunction) (d + 1) w' e') (hts : Spells ts w) (hts' : Spells ts w') :
    e = e' := by
  obtain ⟨limit, hlimit⟩ := exists_within (w ++ w')
  obtain ⟨hw, hw'⟩ := Within.append_iff.mp hlimit
  have hdeep : limit ≤ d + limit := Nat.le_add_left limit d
  have hread := nested_eq_ok 0 [] h h.accepted (Nat.le_refl limit)
    (fun t ht => (hw t ht).trans hdeep) hts Phrase.Ends.nil
  have hread' := nested_eq_ok 0 [] h' h'.accepted (Nat.le_refl limit)
    (fun t ht => (hw' t ht).trans hdeep) hts' Phrase.Ends.nil
  exact congrArg Prod.fst (Except.ok.inj (hread.symm.trans hread'))

theorem parse_eq {text : String} (hscan : Token.scan text = .ok ts) :
    parse text = ofTokens text.utf8ByteSize ts := by
  rw [parse, hscan]
  rfl

/-- A text that can be cut into tokens is read as the expression that the tokens derive with no token
deeper than 128. There is no other expression that they derive, and if they derive none in this way, the
text is malformed, for reading as for evaluating. -/
theorem parse_eq_ok_iff_derives {text : String} (hscan : Token.scan text = .ok ts) :
    (∀ e, parse text = .ok e ↔
      ∃ w, Derives (.series .disjunction) 1 w e ∧ Spells ts w ∧ ∀ t ∈ w, t.depth ≤ 128) ∧
    (∀ w w' e e', Derives (.series .disjunction) 1 w e → Derives (.series .disjunction) 1 w' e' →
      Spells ts w → Spells ts w' → e = e') ∧
    ((¬ ∃ e w, Derives (.series .disjunction) 1 w e ∧ Spells ts w ∧ ∀ t ∈ w, t.depth ≤ 128) →
      ∃ m, parse text = .error m ∧
        ∀ (ev : Evaluator) (c : Context), ev.evaluate c text = .error (.malformed m)) := by
  have hiff : ∀ e, parse text = .ok e ↔
      ∃ w, Derives (.series .disjunction) 1 w e ∧ Spells ts w ∧ ∀ t ∈ w, t.depth ≤ 128 := by
    intro e
    rw [parse_eq hscan]
    exact ofTokens_eq_ok_iff
  refine ⟨hiff, fun w w' e e' h h' hts hts' => h.unique h' hts hts', fun hnone => ?_⟩
  cases hparse : parse text with
  | ok e => exact (hnone ⟨e, (hiff e).mp hparse⟩).elim
  | error m => exact ⟨m, rfl, fun ev c => by rw [Evaluator.evaluate, hparse]⟩

/-- `!` covers the whole comparison to its right, and a conjunction does not go into it. -/
theorem parse_negated_comparison :
    Token.scan "!a == f(b) && c" = .ok [⟨0, .not⟩, ⟨1, .ident "a"⟩, ⟨3, .eq⟩, ⟨6, .ident "f"⟩,
      ⟨7, .lparen⟩, ⟨8, .ident "b"⟩, ⟨9, .rparen⟩, ⟨11, .and⟩, ⟨14, .ident "c"⟩] ∧
    parse "!a == f(b) && c" =
      .ok (.and (.not (.compare .eq (.var "a") (.call "f" [.var "b"]))) (.var "c")) := by
  have hscan : Token.scan "!a == f(b) && c" = .ok [⟨0, .not⟩, ⟨1, .ident "a"⟩, ⟨3, .eq⟩,
      ⟨6, .ident "f"⟩, ⟨7, .lparen⟩, ⟨8, .ident "b"⟩, ⟨9, .rparen⟩, ⟨11, .and⟩,
      ⟨14, .ident "c"⟩] := by cbv
  have hargument : Derives (.series .disjunction) 4 [⟨.ident "b", 4⟩] (.var "b") :=
    .series (.first (.series (.first (.plain (.series (.first (.var "b")))))))
  have hcall : Derives .primary 3
      [⟨.ident "f", 3⟩, ⟨.lparen, 3⟩, ⟨.ident "b", 4⟩, ⟨.rparen, 3⟩] (.call "f" [.var "b"]) :=
    .call "f" [([⟨.ident "b", 4⟩], .var "b")] (List.forall_mem_singleton.mpr hargument)
  have hcomparison := (Derives.first (s := .comparison) (.var (d := 2) "a")).next .eq hcall
  have hright : Derives .negation 2 [⟨.ident "c", 2⟩] (.var "c") :=
    .plain (.series (.first (.var "c")))
  have hconjunction := (Derives.first (s := .conjunction) hcomparison.series.plain.not).next .and hright
  have hwhole := Derives.series (.first (s := .disjunction) hconjunction.series)
  exact ⟨hscan, ((parse_eq_ok_iff_derives hscan).1 _).mpr ⟨_, hwhole, rfl, by simp⟩⟩

end StageFlow.Expr
