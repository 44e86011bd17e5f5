import StageFlow.Proofs.Expr.Grammar
import StageFlow.Proofs.Failure

/-!
# Soundness of reading

What a reader returns is derived by the tokens that it took, and no token is deeper than the room that
the reader was given allows (`Reads`). The readers of the three series are one reader, `Series.read`,
applied to the reader of their operands; so there is one statement about chains, `chain_reads`, and the
others follow the grammar down.
-/

namespace StageFlow

namespace Expr

/-! ## Words of tokens -/

/-- The tokens of a text are those of a derivation. -/
def Spells (ts : List Placed) (w : List Leaf) : Prop := ts.map Placed.token = w.map Leaf.token

namespace Spells

variable {t : Placed} {l : Leaf} {ts ts' : List Placed} {w w' : List Leaf}

theorem nil : Spells [] [] := rfl

theorem cons (h : t.token = l.token) (H : Spells ts w) : Spells (t :: ts) (l :: w) :=
  congrArg₂ List.cons h H

theorem append (H : Spells ts w) (H' : Spells ts' w') : Spells (ts ++ ts') (w ++ w') := by
  rw [Spells, List.map_append, List.map_append, H, H']

end Spells

/-! ## Readers of series -/

namespace Series

/-- What an operator joins, for a reader. -/
def join? : Series → Token → Option (Expr → Expr → Expr)
  | .comparison => comparisonJoin?
  | .conjunction => andJoin?
  | .disjunction => orJoin?

/-- Reads a series, given a reader of its operands. -/
def read (s : Series) (stop : Nat) (operand : Nat → Reader) (room : Nat) : Reader := fun ts => do
  let (left, rest) ← operand room ts
  chain stop s.join? operand room left rest

variable {s : Series} {t : Token} {join : Expr → Expr → Expr}

theorem join?_eq_some_iff : s.join? t = some join ↔ Joins s t join := by
  constructor
  · intro h
    cases s with
    | comparison => cases t <;> cases h <;> constructor
    | conjunction => cases t <;> cases h; constructor
    | disjunction => cases t <;> cases h; constructor
  · rintro (_ | _) <;> rfl

end Series

section
variable (stop : Nat) (inner : Nat → Reader)

theorem comparison_eq :
    comparison stop inner = Series.comparison.read stop fun room => primary stop (inner room) := rfl

theorem conjunction_eq :
    conjunction stop inner = Series.conjunction.read stop (negation stop inner) := rfl

theorem disjunction_eq :
    disjunction stop inner = Series.disjunction.read stop (conjunction stop inner) := rfl

end

/-! ## What has been read -/

/-- The tokens of `ts` up to `rest` derive an expression, and none of them is deeper than a limit. -/
def Reads (p : Phrase) (d limit : Nat) (ts rest : List Placed) (e : Expr) : Prop :=
  ∃ w read, Derives p d w e ∧ Within limit w ∧ ts = read ++ rest ∧ Spells read w

/-- Whatever a reader returns in a room it has read, and no token is deeper than the room allows. -/
def Sound (p : Phrase) (reader : Nat → Reader) : Prop :=
  ∀ ⦃d room ts e rest⦄, reader room ts = .ok (e, rest) → Reads p d (d + room) ts rest e

/-- Whatever a reader of nested disjunctions returns it has read one level deeper. -/
def SoundNested (inner : Nat → Reader) : Prop :=
  ∀ ⦃d room ts e rest⦄, inner room ts = .ok (e, rest) →
    Reads (.series .disjunction) (d + 1) (d + room) ts rest e

variable {stop d room : Nat} {s : Series} {inner operand : Nat → Reader} {ts rest : List Placed}
  {e : Expr}

theorem Reads.single {p : Phrase} {limit : Nat} {t : Placed} {l : Leaf}
    (h : Derives p d [l] e) (hl : l.depth ≤ limit) (ht : t.token = l.token) :
    Reads p d limit (t :: rest) rest e :=
  ⟨[l], [t], h, by simpa [Within] using hl, rfl, .cons ht .nil⟩

/-! ## Chains -/

/-- A chain that goes on after a series that has been read is a series. The room left shrinks as the
number of operators grows. -/
theorem chain_reads (hoperand : Sound s.operand operand) {n : Nat} {left : Expr} {w : List Leaf}
    {read : List Placed} (hleft : Derives (.links s n) d w left) (hw : Within (d + n + room) w)
    (hread : Spells read w) (h : chain stop s.join? operand room left ts = .ok (e, rest)) :
    Reads (.series s) d (d + n + room) (read ++ ts) rest e := by
  induction room generalizing n left w read ts with
  | zero =>
    cases ts with
    | nil => cases h; exact ⟨w, read, hleft.series, hw, rfl, hread⟩
    | cons t ts =>
      unfold chain at h
      split at h
      · cases h; exact ⟨w, read, hleft.series, hw, rfl, hread⟩
      · cases h
  | succ room ih =>
    cases ts with
    | nil => cases h; exact ⟨w, read, hleft.series, hw, rfl, hread⟩
    | cons t ts =>
      unfold chain at h
      split at h
      · cases h; exact ⟨w, read, hleft.series, hw, rfl, hread⟩
      next join hjoin =>
        obtain ⟨⟨right, ts'⟩, hright, hrest⟩ := bind_eq_ok.mp h
        obtain ⟨w', read', hderives, hw', rfl, hread'⟩ := hoperand (d := d + n + 1) hright
        have hlimit : d + (n + 1) + room = d + n + (room + 1) := by omega
        have hdeeper : d + n + 1 + room = d + n + (room + 1) := by omega
        rw [hdeeper] at hw'
        have hall : Within (d + (n + 1) + room) (w ++ ⟨t.token, d + n⟩ :: w') := by
          rw [hlimit, Within.append_iff, Within.cons_iff]
          exact ⟨hw, Nat.le_add_right _ _, hw'⟩
        have hspells : Spells (read ++ t :: read') (w ++ ⟨t.token, d + n⟩ :: w') :=
          hread.append (.cons rfl hread')
        have hreads := ih (hleft.next (Series.join?_eq_some_iff.mp hjoin) hderives) hall hspells hrest
        rwa [hlimit, List.append_assoc] at hreads

theorem Series.sound_read (hoperand : Sound s.operand operand) :
    Sound (.series s) (s.read stop operand) := by
  intro d room ts e rest h
  obtain ⟨⟨left, ts'⟩, hleft, hrest⟩ := bind_eq_ok.mp h
  obtain ⟨w, read, hderives, hw, rfl, hread⟩ := hoperand (d := d) hleft
  exact chain_reads hoperand hderives.first hw hread hrest

/-! ## Primaries -/

theorem arguments_reads (hinner : SoundNested inner) {start bound : Nat} {es : List Expr}
    (h : arguments start (inner room) bound ts = .ok (es, rest)) :
    ∃ args read close, es = args.map Prod.snd ∧
      (∀ a ∈ args, Derives (.series .disjunction) (d + 1) a.1 a.2 ∧ Within (d + room) a.1) ∧
      ts = read ++ close :: rest ∧ Spells read (separated (d + 1) (args.map Prod.fst)) ∧
      close.token = .rparen ∧ args ≠ [] := by
  induction bound generalizing ts es with
  | zero => cases h
  | succ bound ih =>
    obtain ⟨⟨e, ts'⟩, he, hrest⟩ := bind_eq_ok.mp h
    obtain ⟨w, read, hderives, hw, rfl, hread⟩ := hinner (d := d) he
    have hfirst : ∀ a ∈ [(w, e)], Derives (.series .disjunction) (d + 1) a.1 a.2 ∧
        Within (d + room) a.1 := by simpa using ⟨hderives, hw⟩
    dsimp only at hrest
    split at hrest
    next comma ts'' =>
      obtain ⟨⟨es', ts'⟩, hes, hrest⟩ := bind_eq_ok.mp hrest
      cases hrest
      obtain ⟨args, read', close, rfl, hargs, rfl, hread', hclose, hne⟩ := ih hes
      obtain ⟨a, args, rfl⟩ := List.exists_cons_of_ne_nil hne
      refine ⟨(w, e) :: a :: args, read ++ ⟨comma, .comma⟩ :: read', close, rfl, ?_, by simp, ?_,
        hclose, List.cons_ne_nil _ _⟩
      · exact List.forall_mem_cons.mpr ⟨⟨hderives, hw⟩, hargs⟩
      · exact hread.append (.cons rfl hread')
    next close ts'' =>
      cases hrest
      exact ⟨[(w, e)], read, ⟨close, .rparen⟩, rfl, hfirst, rfl, hread, rfl, List.cons_ne_nil _ _⟩
    next => cases hrest

theorem sound_primary (hinner : SoundNested inner) :
    Sound .primary fun room => primary stop (inner room) := by
  intro d room ts e rest h
  have hd : d ≤ d + room := Nat.le_add_right d room
  dsimp only at h
  unfold primary at h
  split at h
  next => cases h
  next => cases h; exact .single (.num _) hd rfl
  next => cases h; exact .single (.str _) hd rfl
  next => cases h; exact .single .true hd rfl
  next => cases h; exact .single .false hd rfl
  next start name ts =>
    split at h
    next opening closing ts =>
      cases h
      refine ⟨_, [⟨start, .ident name⟩, ⟨opening, .lparen⟩, ⟨closing, .rparen⟩], .call name [] nofun,
        ?_, rfl, rfl⟩
      simp [Within, separated, hd]
    next opening ts _ =>
      obtain ⟨⟨es, ts'⟩, hes, hrest⟩ := bind_eq_ok.mp h
      cases hrest
      obtain ⟨args, read, close, rfl, hargs, rfl, hread, hclose, hne⟩ :=
        arguments_reads (d := d) hinner hes
      -- the first argument shows that there is room
      obtain ⟨a, ha⟩ := List.exists_mem_of_ne_nil args hne
      have hroom := (hargs a ha).1.depth_le (hargs a ha).2
      refine ⟨_, ⟨start, .ident name⟩ :: ⟨opening, .lparen⟩ :: (read ++ [close]),
        .call name args fun a ha => (hargs a ha).1, ?_, by simp, ?_⟩
      · rw [Within.cons_iff, Within.cons_iff, Within.append_iff]
        refine ⟨hd, hd, .separated hroom ?_, by simp [Within]⟩
        exact List.forall_mem_map.mpr fun a ha => (hargs a ha).2
      · exact .cons rfl (.cons rfl (hread.append (.cons hclose .nil)))
    next => cases h; exact .single (.var _) hd rfl
  next start ts =>
    obtain ⟨⟨e', ts'⟩, he, hrest⟩ := bind_eq_ok.mp h
    dsimp only at hrest
    split at hrest
    next closing ts'' =>
      cases hrest
      obtain ⟨w, read, hderives, hw, rfl, hread⟩ := hinner (d := d) he
      refine ⟨_, ⟨start, .lparen⟩ :: (read ++ [⟨closing, .rparen⟩]), hderives.paren, ?_, by simp, ?_⟩
      · rw [Within.cons_iff, Within.append_iff]
        exact ⟨hd, hw, by simp [Within]⟩
      · exact .cons rfl (hread.append (.cons rfl .nil))
    next => cases hrest
  next => cases h

/-! ## Up to disjunctions -/

theorem sound_comparison (hinner : SoundNested inner) :
    Sound (.series .comparison) (comparison stop inner) := by
  rw [comparison_eq]
  exact Series.sound_read (sound_primary hinner)

theorem sound_negation (hinner : SoundNested inner) : Sound .negation (negation stop inner) := by
  intro d room ts e rest h
  induction room generalizing d ts e with
  | zero =>
    unfold negation at h
    split at h
    next => cases h
    next hr => cases hr
    next =>
      obtain ⟨w, read, hderives, hrest⟩ := sound_comparison (d := d) hinner h
      exact ⟨w, read, hderives.plain, hrest⟩
  | succ room ih =>
    unfold negation at h
    split at h
    next hr => cases hr
    next start ts hr =>
      cases hr
      obtain ⟨⟨e', ts'⟩, he, hrest⟩ := bind_eq_ok.mp h
      cases hrest
      obtain ⟨w, read, hderives, hw, rfl, hread⟩ := ih (d := d + 1) he
      rw [Nat.add_right_comm d 1 room] at hw
      refine ⟨_, ⟨start, .not⟩ :: read, hderives.not, ?_, rfl, .cons rfl hread⟩
      exact Within.cons_iff.mpr ⟨Nat.le_add_right d (room + 1), hw⟩
    next =>
      obtain ⟨w, read, hderives, hrest⟩ := sound_comparison (d := d) hinner h
      exact ⟨w, read, hderives.plain, hrest⟩

theorem sound_disjunction (hinner : SoundNested inner) :
    Sound (.series .disjunction) (disjunction stop inner) := by
  have hconjunction : Sound (.series .conjunction) (conjunction stop inner) := by
    rw [conjunction_eq]
    exact Series.sound_read (sound_negation hinner)
  rw [disjunction_eq]
  exact Series.sound_read hconjunction

theorem soundNested_nested (stop bound : Nat) : SoundNested (nested stop bound) := by
  intro d room ts e rest h
  induction bound generalizing d room ts e rest with
  | zero => cases h
  | succ bound ih =>
    cases room with
    | zero => cases h
    | succ room =>
      have hreads := sound_disjunction (d := d + 1) (fun _ _ _ _ _ => @ih _ _ _ _ _) h
      rwa [Nat.add_right_comm d 1 room] at hreads

/-- What is read of all tokens of a text is derived by them within the depth limit. -/
theorem reads_of_ofTokens (h : ofTokens stop ts = .ok e) :
    ∃ w, Derives (.series .disjunction) 1 w e ∧ Spells ts w ∧ Within maxDepth w := by
  unfold ofTokens at h
  split at h
  · cases h
  · obtain ⟨⟨e', rest⟩, he, hrest⟩ := bind_eq_ok.mp h
    obtain ⟨w, read, hderives, hw, rfl, hread⟩ := soundNested_nested stop maxDepth (d := 0) he
    dsimp only at hrest
    split at hrest
    next =>
      cases hrest
      rw [Nat.zero_add] at hderives hw
      rw [List.append_nil]
      exact ⟨w, hderives, hread, hw⟩
    next => cases hrest
    next => cases hrest

end Expr
end StageFlow
