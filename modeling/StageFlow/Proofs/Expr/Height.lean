import StageFlow.Proofs.Expr.Completeness

/-!
# The height of what is read

A `!` takes room from its operand, and an operator takes room from what stands to its right. What stands
to the left of an operator has had all of the room, and the tree still grows by one for that operator. So
the height of a tree is not bounded by the room of its text: each series can spend the room once more.
`tallest` is the height that a room allows, which is about three halves of its square
(`two_mul_tallest`). Some tokens reach it (`exists_ofTokens_height_eq`).
-/

namespace StageFlow.Expr

/-! ## The bound -/

/-- The height of the tallest disjunction entered with the given room. -/
def tallest : Nat → Nat
  | 0 => 0
  | room + 1 => tallest room + 1 + 3 * room

/-- How many other series lie between a series and a primary. -/
def Series.level : Series → Nat
  | .comparison => 0
  | .conjunction => 1
  | .disjunction => 2

/-- The height of the tallest phrase with the given room left. -/
def Phrase.tallest : Phrase → Nat → Nat
  | .primary, room => Expr.tallest room + 1
  | .negation, room => Expr.tallest room + 1 + room
  | .series s, room => Expr.tallest room + 1 + (s.level + 1) * room
  | .links s n, room => Expr.tallest room + 1 + s.level * room + n

theorem two_mul_tallest (room : Nat) : 2 * tallest room + room = 3 * room ^ 2 := by
  induction room with
  | zero => rfl
  | succ room ih =>
    rw [tallest]
    linarith [ih, show 3 * (room + 1) ^ 2 = 3 * room ^ 2 + 6 * room + 3 by ring]

theorem tallest_maxDepth : tallest maxDepth = 24512 := by
  have h := two_mul_tallest 128
  rw [maxDepth]
  omega

theorem tallest_mono : Monotone tallest := by
  refine monotone_nat_of_le_succ fun room => ?_
  rw [tallest]
  omega

theorem Series.tallest_operand (s : Series) (room : Nat) :
    s.operand.tallest room = Expr.tallest room + 1 + s.level * room := by
  cases s <;> simp [Series.operand, Phrase.tallest, Series.level]

theorem Phrase.tallest_mono (p : Phrase) : Monotone p.tallest := by
  intro room room' h
  have htallest := Expr.tallest_mono h
  cases p with
  | primary => exact Nat.add_le_add_right htallest 1
  | negation => simp only [Phrase.tallest]; omega
  | series s => simp only [Phrase.tallest]; gcongr
  | links s n => simp only [Phrase.tallest]; gcongr

variable {p : Phrase} {s : Series} {d room n : Nat} {w : List Leaf} {e : Expr}

theorem heightArgs_le_iff {es : List Expr} : heightArgs es ≤ n ↔ ∀ e ∈ es, e.height ≤ n := by
  induction es with
  | nil => simp [heightArgs]
  | cons e es ih => rw [heightArgs, Nat.max_le, ih, List.forall_mem_cons]

theorem Joins.height_eq {op : Token} {join : Expr → Expr → Expr} (h : Joins s op join) (l r : Expr) :
    (join l r).height = max l.height r.height + 1 := by
  cases h <;> rfl

/-- A series has room for all its operators. -/
theorem Derives.operators_le (h : Derives (.links s n) d w e) (hw : Within (d + room) w) :
    n ≤ room := by
  cases h with
  | first => exact Nat.zero_le room
  | next _ _ right =>
    have hd := right.depth_le (Within.cons_iff.mp (Within.append_iff.mp hw).2).2
    omega

/-- The height of a disjunction that is nested one level deeper than what it stands in. -/
theorem nested_height_le (h : Derives (.series .disjunction) (d + 1) w e)
    (H : ∀ room, Within (d + 1 + room) w → e.height ≤ (Phrase.series .disjunction).tallest room)
    (hw : Within (d + room) w) : e.height ≤ Expr.tallest room := by
  obtain ⟨room, rfl, hw'⟩ := h.exists_room hw
  exact H room hw'

/-- What is derived is no taller than the room allows. -/
theorem Derives.height_le (h : Derives p d w e) (hw : Within (d + room) w) :
    e.height ≤ p.tallest room := by
  induction h generalizing room with
  | num | str | true | false | var => exact Nat.zero_le _
  | @call d name args hargs ih =>
    have hwithin := (Within.append_iff.mp (Within.cons_iff.mp (Within.cons_iff.mp hw).2).2).1
    refine Nat.succ_le_succ (heightArgs_le_iff.mpr (List.forall_mem_map.mpr fun a ha => ?_))
    exact nested_height_le (hargs a ha) (fun _ => ih a ha)
      (hwithin.of_separated a.1 (List.mem_map_of_mem ha))
  | paren inner ih =>
    have hwithin := (Within.append_iff.mp (Within.cons_iff.mp hw).2).1
    exact (nested_height_le inner (fun _ => ih) hwithin).trans (Nat.le_succ _)
  | @not d w e operand ih =>
    obtain ⟨room, rfl, hwithin⟩ := operand.exists_room (Within.cons_iff.mp hw).2
    have hoperand : e.height ≤ Phrase.negation.tallest room := ih hwithin
    have hmore := Expr.tallest_mono (Nat.le_succ room)
    simp only [height, Phrase.tallest, Nat.succ_eq_add_one] at hoperand hmore ⊢
    omega
  | plain comparison ih => simpa [Phrase.tallest, Series.level] using ih hw
  | @first s d w e operand ih => exact (ih hw).trans_eq (s.tallest_operand room)
  | @next s n d w l op join w' r left joins right ihl ihr =>
    obtain ⟨hw₁, hw'⟩ := Within.append_iff.mp hw
    have hw₂ := (Within.cons_iff.mp hw').2
    have hd := right.depth_le hw₂
    obtain ⟨room', hroom⟩ : ∃ r, room = n + 1 + r := ⟨room - (n + 1), by omega⟩
    have hdeeper : d + room = d + n + 1 + room' := by omega
    -- the left side has had all of the room, and the right side has what the operators have left of it
    have hleft := ihl hw₁
    have hright := (ihr (hdeeper ▸ hw₂)).trans (s.operand.tallest_mono (show room' ≤ room by omega))
    rw [Series.tallest_operand] at hright
    simp only [joins.height_eq, Phrase.tallest] at hleft ⊢
    omega
  | @series s n d w e links ih =>
    have hn := links.operators_le hw
    have hlinks := ih hw
    simp only [Phrase.tallest] at hlinks ⊢
    rw [Nat.add_one_mul]
    omega

theorem ofTokens_height_le {stop : Nat} {ts : List Placed} (h : ofTokens stop ts = .ok e) :
    e.height ≤ tallest maxDepth := by
  obtain ⟨w, hderives, -, hw⟩ := ofTokens_eq_ok_iff.mp h
  exact nested_height_le (d := 0) hderives (fun _ => hderives.height_le)
    ((Nat.zero_add maxDepth).symm ▸ hw)

/-- No expression that is read is taller than 24512. -/
theorem parse_height_le {text : String} (h : parse text = .ok e) : e.height ≤ 24512 := by
  obtain ⟨ts, -, hts⟩ := bind_eq_ok.mp h
  exact tallest_maxDepth ▸ ofTokens_height_le hts

theorem parse_comparison_height :
    parse "a == b" = .ok (.compare .eq (.var "a") (.var "b")) ∧
    (Expr.compare .eq (.var "a") (.var "b")).height ≤ 24512 := by
  have h : parse "a == b" = .ok (.compare .eq (.var "a") (.var "b")) := by cbv
  exact ⟨h, parse_height_le h⟩

set_option maxRecDepth 4000 in
/-- The operands of a chain can take up the room that its operators take up as well. -/
theorem parse_height_gt : ∃ e,
    parse (String.ofList (List.replicate 127 '!' ++ "a&&a&&a".toList)) = .ok e ∧ e.height = 129 := by
  have h : (parse (String.ofList (List.replicate 127 '!' ++ "a&&a&&a".toList))).map height =
    .ok 129 := by cbv
  cases hparse : parse (String.ofList (List.replicate 127 '!' ++ "a&&a&&a".toList)) with
  | ok e => exact ⟨e, rfl, Except.ok.inj (hparse ▸ h)⟩
  | error m => rw [hparse] at h; cases h

/-! ## The bound is reached -/

theorem derives_operand_var (s : Series) (d : Nat) (name : String) :
    Derives s.operand d [⟨.ident name, d⟩] (.var name) := by
  have hcomparison := Derives.series (.first (s := .comparison) (.var (d := d) name))
  cases s with
  | comparison => exact .var name
  | conjunction => exact hcomparison.plain
  | disjunction => exact .series (.first hcomparison.plain)

theorem exists_joins (s : Series) : ∃ op join, Joins s op join := by
  cases s with
  | comparison => exact ⟨_, _, .eq⟩
  | conjunction => exact ⟨_, _, .and⟩
  | disjunction => exact ⟨_, _, .or⟩

/-- Operators on top of an operand that has taken up all of the room add their number to its height. -/
theorem exists_links (h : Derives s.operand d w e) (hw : Within (d + room) w) (hn : n ≤ room) :
    ∃ w' e', Derives (.links s n) d w' e' ∧ Within (d + room) w' ∧ e'.height = e.height + n := by
  induction n with
  | zero => exact ⟨w, e, .first h, hw, rfl⟩
  | succ n ih =>
    obtain ⟨w', e', hderives, hw', hheight⟩ := ih (Nat.le_of_succ_le hn)
    obtain ⟨op, join, hjoins⟩ := exists_joins s
    refine ⟨_, _, hderives.next hjoins (derives_operand_var s (d + n + 1) "a"), ?_, ?_⟩
    · simp only [Within.append_iff, Within.cons_iff]
      refine ⟨hw', by omega, by omega, nofun⟩
    · rw [hjoins.height_eq, hheight, height, Nat.max_zero, Nat.add_assoc]

theorem exists_series (h : Derives s.operand d w e) (hw : Within (d + room) w) :
    ∃ w' e', Derives (.series s) d w' e' ∧ Within (d + room) w' ∧ e'.height = e.height + room := by
  obtain ⟨w', e', hderives, hw', hheight⟩ := exists_links h hw (Nat.le_refl room)
  exact ⟨w', e', hderives.series, hw', hheight⟩

theorem exists_disjunction (h : Derives .primary d w e) (hw : Within (d + room) w) :
    ∃ w' e', Derives (.series .disjunction) d w' e' ∧ Within (d + room) w' ∧
      e'.height = e.height + 3 * room := by
  obtain ⟨w₁, e₁, hcomparison, hw₁, h₁⟩ := exists_series (s := .comparison) h hw
  obtain ⟨w₂, e₂, hconjunction, hw₂, h₂⟩ := exists_series (s := .conjunction) hcomparison.plain hw₁
  obtain ⟨w₃, e₃, hdisjunction, hw₃, h₃⟩ := exists_series (s := .disjunction) hconjunction hw₂
  exact ⟨w₃, e₃, hdisjunction, hw₃, by omega⟩

/-- A call without arguments has a height, and in the argument of a call all three series start anew. -/
theorem exists_primary_height_eq (d room : Nat) :
    ∃ w e, Derives .primary d w e ∧ Within (d + room) w ∧ e.height = tallest room + 1 := by
  induction room generalizing d with
  | zero => exact ⟨_, _, .call "f" [] (List.forall_mem_nil _), by simp [Within, separated], rfl⟩
  | succ room ih =>
    obtain ⟨w, e, hprimary, hw, hheight⟩ := ih (d + 1)
    obtain ⟨w', e', hargument, hw', hheight'⟩ := exists_disjunction hprimary hw
    refine ⟨_, _, .call "f" [(w', e')] (List.forall_mem_singleton.mpr hargument), ?_, ?_⟩
    · simp only [Within.append_iff, Within.cons_iff]
      have hdeeper : d + 1 + room = d + (room + 1) := by omega
      exact ⟨by omega, by omega, hdeeper ▸ hw', by omega, List.forall_mem_nil _⟩
    · simp only [List.map_cons, List.map_nil, height, heightArgs, Nat.max_zero, tallest]
      omega

/-- The bound is the best one: some tokens are read as an expression of that height. -/
theorem exists_ofTokens_height_eq (stop : Nat) :
    ∃ ts e, ofTokens stop ts = .ok e ∧ e.height = tallest maxDepth := by
  obtain ⟨w, e, hprimary, hw, hheight⟩ := exists_primary_height_eq 1 127
  obtain ⟨w', e', hderives, hw', hheight'⟩ := exists_disjunction hprimary hw
  refine ⟨w'.map fun l => ⟨0, l.token⟩, e', ofTokens_eq_ok_iff.mpr ⟨w', hderives, ?_, hw'⟩, ?_⟩
  · rw [Spells, List.map_map]
    rfl
  · rw [hheight', hheight]
    rfl

end StageFlow.Expr
