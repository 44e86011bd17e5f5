import StageFlow.Proofs.Number.Rounding

/-!
# The shortest decimal

`Number.shortest` looks for a decimal that rounds to a rank on ever finer grids. It finds one with at most
seventeen digits (`shortest_roundsTo`). A decimal of at most fifteen digits is the only one of that kind
that rounds to its rank if the rank stands for a value of full precision, so that it is found again
(`shortest_eq_of_fifteen`).
-/

namespace StageFlow.Number

variable {r c d : Nat} {e : Int} {x y : ℚ}

/-! ## Grid points -/

/-- The last point of the grid `10 ^ e` that is not above the value of a rank. -/
def floorPoint (r : Nat) (e : Int) : Nat :=
  magnitude r * tenTo (-e).toNat / (twoTo 1074 * tenTo e.toNat)

/-- A grid point lies between the borders of a rank. -/
def readsBack (r : Nat) (e : Int) (c : Nat) : Bool :=
  let up := tenTo (-e).toNat
  let x := 2 * c * (twoTo 1074 * tenTo e.toNat)
  let low := (magnitude (r - 1) + magnitude r) * up
  let high := (magnitude r + magnitude (r + 1)) * up
  if r % 2 = 0 then low ≤ x && x ≤ high else low < x && x < high

theorem gridPoint?_eq (r : Nat) (e : Int) : gridPoint? r e =
    match readsBack r e (floorPoint r e), readsBack r e (floorPoint r e + 1) with
    | true, true =>
      some (if 2 * (magnitude r * tenTo (-e).toNat % (twoTo 1074 * tenTo e.toNat)) <
        twoTo 1074 * tenTo e.toNat then floorPoint r e else floorPoint r e + 1)
    | true, false => some (floorPoint r e)
    | false, true => some (floorPoint r e + 1)
    | false, false => none := rfl

theorem floorPoint_bounds (r : Nat) (e : Int) :
    scaled (floorPoint r e) e ≤ magnitude r ∧ magnitude r < scaled (floorPoint r e + 1) e := by
  have hup : (0 : ℚ) < tenTo (-e).toNat := Nat.cast_pos.mpr (tenTo_pos _)
  have hden : 0 < twoTo 1074 * tenTo e.toNat := Nat.mul_pos (twoTo_pos _) (tenTo_pos _)
  rw [scaled_ratio, scaled_ratio, div_le_iff₀ hup, lt_div_iff₀ hup, Nat.mul_assoc, Nat.mul_assoc,
    Nat.mul_comm (tenTo e.toNat)]
  constructor
  · exact_mod_cast Nat.div_mul_le_self _ _
  · exact_mod_cast (Nat.div_lt_iff_lt_mul hden).mp (Nat.lt_succ_self _)

/-- A border and a grid point over one denominator. -/
theorem border_scaled_eq (r c : Nat) (e : Int) : ∃ q : ℚ, 0 < q ∧
    border r = ((magnitude (r - 1) + magnitude r) * tenTo (-e).toNat : Nat) / q ∧
    scaled c e = (2 * c * (twoTo 1074 * tenTo e.toNat) : Nat) / q := by
  have hup : (0 : ℚ) < tenTo (-e).toNat := Nat.cast_pos.mpr (tenTo_pos _)
  refine ⟨2 * tenTo (-e).toNat, by positivity, ?_, ?_⟩
  · rw [border, Nat.cast_mul, Nat.cast_add, mul_div_mul_right _ _ hup.ne']
  · have hcomm : 2 * c * (twoTo 1074 * tenTo e.toNat) = 2 * (c * tenTo e.toNat * twoTo 1074) := by ring
    rw [scaled_ratio, hcomm, Nat.cast_mul 2, Nat.cast_ofNat, mul_div_mul_left _ _ two_ne_zero]

theorem border_le_scaled_iff : border r ≤ scaled c e ↔
    (magnitude (r - 1) + magnitude r) * tenTo (-e).toNat ≤ 2 * c * (twoTo 1074 * tenTo e.toNat) := by
  obtain ⟨q, hq, hborder, hscaled⟩ := border_scaled_eq r c e
  rw [hborder, hscaled, div_le_div_iff_of_pos_right hq, Nat.cast_le]

theorem scaled_le_border_iff : scaled c e ≤ border r ↔
    2 * c * (twoTo 1074 * tenTo e.toNat) ≤ (magnitude (r - 1) + magnitude r) * tenTo (-e).toNat := by
  obtain ⟨q, hq, hborder, hscaled⟩ := border_scaled_eq r c e
  rw [hborder, hscaled, div_le_div_iff_of_pos_right hq, Nat.cast_le]

theorem roundsTo_iff : RoundsTo x r ↔
    if r % 2 = 0 then border r ≤ x ∧ x ≤ border (r + 1) else border r < x ∧ x < border (r + 1) := by
  split
  next heven => exact ⟨fun h => ⟨h.above, h.below⟩, fun h => ⟨h.1, h.2, fun _ => heven⟩⟩
  next hodd =>
    refine ⟨fun h => ⟨?_, ?_⟩, fun h => ⟨h.1.le, h.2.le, fun heq => ?_⟩⟩
    · exact h.above.lt_of_ne fun heq => hodd (h.even (.inl heq.symm))
    · exact h.below.lt_of_ne fun heq => hodd (h.even (.inr heq))
    · rcases heq with heq | heq
      · exact absurd heq h.1.ne'
      · exact absurd heq h.2.ne

theorem readsBack_iff : readsBack r e c ↔ RoundsTo (scaled c e) r := by
  rw [roundsTo_iff, readsBack]
  split
  · simp only [Bool.and_eq_true, decide_eq_true_eq, border_le_scaled_iff, scaled_le_border_iff,
      Nat.add_sub_cancel]
  · simp only [Bool.and_eq_true, decide_eq_true_eq, lt_iff_not_ge, border_le_scaled_iff,
      scaled_le_border_iff, Nat.add_sub_cancel]

theorem gridPoint?_eq_some (h : gridPoint? r e = some c) :
    RoundsTo (scaled c e) r ∧ c ≤ floorPoint r e + 1 := by
  rw [gridPoint?_eq] at h
  split at h
  next hlow hhigh =>
    rw [← Option.some.inj h]
    split
    · exact ⟨readsBack_iff.mp hlow, Nat.le_succ _⟩
    · exact ⟨readsBack_iff.mp hhigh, le_rfl⟩
  next hlow _ =>
    cases h
    exact ⟨readsBack_iff.mp hlow, Nat.le_succ _⟩
  next _ hhigh =>
    cases h
    exact ⟨readsBack_iff.mp hhigh, le_rfl⟩
  next => cases h

theorem gridPoint?_eq_none (h : gridPoint? r e = none) :
    ¬RoundsTo (scaled (floorPoint r e) e) r ∧ ¬RoundsTo (scaled (floorPoint r e + 1) e) r := by
  rw [gridPoint?_eq] at h
  split at h
  case h_4 hlow hhigh =>
    rw [← readsBack_iff, ← readsBack_iff, hlow, hhigh]
    exact ⟨Bool.false_ne_true, Bool.false_ne_true⟩
  all_goals cases h

/-- If any point of the grid rounds to a rank, then one of the two next to its value does. -/
theorem gridPoint?_isSome (h : RoundsTo (scaled d e) r) : (gridPoint? r e).isSome := by
  rw [← Option.ne_none_iff_isSome]
  intro hnone
  obtain ⟨hlow, hhigh⟩ := gridPoint?_eq_none hnone
  obtain ⟨hfloor, hnext⟩ := floorPoint_bounds r e
  rcases Nat.lt_or_ge (floorPoint r e) d with hlt | hge
  · exact hhigh ((RoundsTo.magnitude r).between h hnext.le (scaled_mono hlt e))
  · exact hlow (h.between (RoundsTo.magnitude r) (scaled_mono hge e) hfloor)

/-! ## Seventeen digits -/

theorem scaled_succ (c : Nat) (e : Int) : scaled (c + 1) e = scaled c e + 10 ^ e * unit := by
  simp only [scaled, Nat.cast_add, Nat.cast_one]
  ring

theorem scaled_ten_pow (k : Nat) (e : Int) : scaled (10 ^ k) e = 10 ^ (e + k) * unit := by
  rw [scaled, zpow_add₀ (by norm_num), zpow_natCast, Nat.cast_pow, Nat.cast_ofNat, mul_comm (10 ^ k : ℚ)]

/-- A decimal as a point of a finer grid. -/
theorem scaled_refine {e' : Int} (h : e' ≤ e) (d : Nat) :
    scaled d e = scaled (d * 10 ^ (e - e').toNat) e' := by
  have hexp : e = (e - e').toNat + e' := by omega
  rw [scaled, scaled, hexp, zpow_add₀ (by norm_num), zpow_natCast, ← hexp, Nat.cast_mul, Nat.cast_pow,
    Nat.cast_ofNat]
  ring

theorem pos_of_roundsTo (hr : 0 < r) (h : RoundsTo (scaled c e) r) : 0 < c := by
  refine Nat.pos_of_ne_zero fun h0 => hr.ne ?_
  subst h0
  exact (RoundsTo.magnitude 0).unique (scaled_zero e ▸ h)

theorem decimalSize_eq (r : Nat) :
    decimalSize r = ((digitsOf (floorPoint r (-400))).length : Int) - 400 := by
  have h0 : tenTo (-400 : Int).toNat = 1 := rfl
  rw [decimalSize, floorPoint, h0, Nat.mul_one]
  rfl

theorem decimalSize_bounds (hr : 0 < r) :
    10 ^ (decimalSize r - 1) * unit ≤ magnitude r ∧ magnitude r < 10 ^ decimalSize r * unit := by
  obtain ⟨hfloor, hnext⟩ := floorPoint_bounds r (-400)
  have hpos : 0 < floorPoint r (-400) := by
    refine Nat.pos_of_ne_zero fun h0 => hnext.not_ge ?_
    have hmag : magnitude 0 < magnitude r := magnitude_strictMono hr
    rw [magnitude_zero] at hmag
    have hone : (1 : ℚ) ≤ magnitude r := by exact_mod_cast hmag
    rw [h0, Nat.zero_add, ← Nat.pow_zero 10, scaled_ten_pow]
    exact (le_border_one.trans (by rw [border_one]; norm_num)).trans hone
  have hsize := decimalSize_eq r
  refine ⟨(le_scaled hpos (by omega)).trans hfloor, hnext.trans_le ?_⟩
  refine (scaled_mono (digits_bounds hpos).2 _).trans ?_
  rw [scaled_ten_pow, hsize, sub_eq_neg_add]

/-- The grid of seventeen digits is finer than the borders of any rank are apart. -/
theorem gridPoint?_seventeen (hr : 0 < r) : (gridPoint? r (decimalSize r - 17)).isSome := by
  rw [← Option.ne_none_iff_isSome]
  intro hnone
  obtain ⟨hlow, hhigh⟩ := gridPoint?_eq_none hnone
  obtain ⟨hfloor, hnext⟩ := floorPoint_bounds r (decimalSize r - 17)
  have hbelow : scaled (floorPoint r (decimalSize r - 17)) (decimalSize r - 17) ≤ border r :=
    le_of_not_gt fun hlt => hlow (.of_lt hlt (hfloor.trans_lt (magnitude_lt_border r)))
  have habove : border (r + 1) ≤ scaled (floorPoint r (decimalSize r - 17) + 1) (decimalSize r - 17) :=
    le_of_not_gt fun hlt => hhigh (.of_lt ((border_lt_magnitude hr).trans hnext) hlt)
  have hgrid : (10 : ℚ) ^ (decimalSize r - 1) = 10 ^ (decimalSize r - 17) * 10 ^ 16 := by
    rw [← zpow_natCast, ← zpow_add₀ (by norm_num)]
    congr 1
    omega
  have hsize := (decimalSize_bounds hr).1
  rw [hgrid, mul_right_comm] at hsize
  have hstep : 0 < 10 ^ (decimalSize r - 17) * unit := mul_pos (by positivity) unit_pos
  rw [scaled_succ] at habove
  -- one spacing below and one above make up at least what the value has in units of `2 ^ (-53)`
  have hprev : (magnitude r : ℚ) ≤ 2 ^ 53 * spacing (r - 1) := by
    have hle := magnitude_succ_le (r - 1)
    rw [Nat.sub_add_cancel hr] at hle
    exact_mod_cast hle
  have hsucc : (magnitude r : ℚ) ≤ 2 ^ 53 * spacing r := by
    exact_mod_cast (magnitude_strictMono (Nat.lt_succ_self r)).le.trans (magnitude_succ_le r)
  rw [border_of_pos hr] at hbelow
  rw [border_succ] at habove
  linarith

/-! ## Stripping zeros -/

theorem stripZeros_spec (fuel d : Nat) (e : Int) :
    scaled (stripZeros fuel d e).1 (stripZeros fuel d e).2 = scaled d e ∧
      (0 < d → d < 10 ^ fuel → (stripZeros fuel d e).1 % 10 ≠ 0) := by
  induction fuel generalizing d e with
  | zero => exact ⟨rfl, fun hd hlt => by omega⟩
  | succ fuel ih =>
    rw [stripZeros]
    split
    next h =>
      simp only [Bool.and_eq_true, decide_eq_true_eq] at h
      obtain ⟨hne, hmod⟩ := h
      obtain ⟨hvalue, hstrip⟩ := ih (d / 10) (e + 1)
      have hd : d = d / 10 * 10 ^ (e + 1 - e).toNat := by
        rw [add_sub_cancel_left]
        exact (Nat.div_mul_cancel (Nat.dvd_of_mod_eq_zero hmod)).symm
      refine ⟨?_, fun hpos hlt => hstrip (by omega) (by omega)⟩
      rw [hvalue, scaled_refine (show e ≤ e + 1 by omega), ← hd]
    next h =>
      refine ⟨rfl, fun hpos _ hmod => h ?_⟩
      simp [hpos.ne', hmod]

theorem floorPoint_lt (hr : 0 < r) (k : Nat) : floorPoint r (decimalSize r - k) < 10 ^ k := by
  have hlt := (floorPoint_bounds r (decimalSize r - k)).1.trans_lt (decimalSize_bounds hr).2
  refine Nat.lt_of_not_le fun hle => hlt.not_ge ?_
  have := scaled_mono hle (decimalSize r - k)
  rwa [scaled_ten_pow, sub_add_cancel] at this

/-- The search ends at the first grid with a point that rounds to the rank. -/
theorem shortest_eq (hr : 0 < r) :
    ∃ n c, n < 17 ∧ gridPoint? r (decimalSize r - (n + 1 : Nat)) = some c ∧
      (∀ m < n, gridPoint? r (decimalSize r - (m + 1 : Nat)) = none) ∧
      shortest r = stripZeros 20 c (decimalSize r - (n + 1 : Nat)) := by
  let f (n : Nat) : Option (Nat × Int) :=
    (gridPoint? r (decimalSize r - (n + 1 : Nat))).map fun c => (c, decimalSize r - (n + 1 : Nat))
  have hf {n : Nat} : f n = none ↔ gridPoint? r (decimalSize r - (n + 1 : Nat)) = none :=
    Option.map_eq_none_iff
  obtain ⟨p, hp⟩ : ∃ p, (List.range 17).findSome? f = some p := by
    refine Option.isSome_iff_exists.mp (List.findSome?_isSome_iff.mpr ⟨16, by decide, ?_⟩)
    exact Option.isSome_map.trans (gridPoint?_seventeen hr)
  obtain ⟨l, n, l', hl, hn, hnone⟩ := List.findSome?_eq_some_iff.mp hp
  rw [List.range_eq_range', List.range'_eq_append_iff] at hl
  obtain ⟨k, hk, rfl, htail⟩ := hl
  obtain ⟨hlen, rfl⟩ : k < 17 ∧ n = k := by
    obtain ⟨j, hj⟩ : ∃ j, 17 - k = j + 1 := by
      refine Nat.exists_eq_succ_of_ne_zero fun h0 => ?_
      rw [h0] at htail
      cases htail
    rw [hj, List.range'_succ] at htail
    exact ⟨by omega, (List.cons.inj htail).1.trans (by omega)⟩
  obtain ⟨c, hc, rfl⟩ := Option.map_eq_some_iff.mp hn
  refine ⟨n, c, hlen, hc, fun m hm => hf.mp (hnone m (List.mem_range'_1.mpr ⟨Nat.zero_le m, by omega⟩)), ?_⟩
  rw [shortest]
  exact congrArg (fun found => stripZeros 20 (found.getD (0, 0)).1 (found.getD (0, 0)).2) hp

/-- What is found rounds to the rank, and its last digit is not zero. -/
theorem shortest_roundsTo (hr : 0 < r) :
    RoundsTo (scaled (shortest r).1 (shortest r).2) r ∧ (shortest r).1 % 10 ≠ 0 := by
  obtain ⟨n, c, hn, hc, -, heq⟩ := shortest_eq hr
  obtain ⟨hround, hle⟩ := gridPoint?_eq_some hc
  have hlt := floorPoint_lt hr (n + 1)
  have hpow : 10 ^ (n + 1) ≤ 10 ^ 17 := Nat.pow_le_pow_right (by decide) hn
  obtain ⟨hvalue, hstrip⟩ := stripZeros_spec 20 c (decimalSize r - (n + 1 : Nat))
  rw [heq, hvalue]
  exact ⟨hround, hstrip (pos_of_roundsTo hr hround) (by omega)⟩

/-! ## Fifteen digits -/

/-- A decimal of at most fifteen digits. -/
def FewDigits (x : ℚ) : Prop := ∃ d < 10 ^ 15, ∃ e, x = scaled d e

theorem fewDigits_scaled (h : d ≤ 10 ^ 15) (e : Int) : FewDigits (scaled d e) := by
  rcases Nat.lt_or_eq_of_le h with hlt | rfl
  · exact ⟨d, hlt, e, rfl⟩
  · refine ⟨1, by decide, e + 15, ?_⟩
    rw [scaled_ten_pow, ← Nat.pow_zero 10, scaled_ten_pow]
    simp

/-- Decimals of few digits are far apart. -/
theorem FewDigits.gap (hx : FewDigits x) (hy : FewDigits y) (h : x < y) : x < 10 ^ 15 * (y - x) := by
  obtain ⟨d, hd, e, rfl⟩ := hx
  obtain ⟨d', hd', e', rfl⟩ := hy
  -- on the finer of their grids, one of them has few digits, hence the lower one
  obtain ⟨m, hm, a, ha, b, hb, hfew⟩ : ∃ m : Int, m = min e e' ∧ ∃ a, scaled d e = scaled a m ∧
      ∃ b, scaled d' e' = scaled b m ∧ (a < 10 ^ 15 ∨ b < 10 ^ 15) := by
    refine ⟨_, rfl, _, scaled_refine (min_le_left e e') d, _, scaled_refine (min_le_right e e') d', ?_⟩
    rcases le_total e e' with hle | hle
    · left
      rw [min_eq_left hle, sub_self]
      simpa using hd
    · right
      rw [min_eq_right hle, sub_self]
      simpa using hd'
  rw [ha, hb] at h ⊢
  have hab : a < b := Nat.lt_of_not_le fun hle => h.not_ge (scaled_mono hle m)
  have hnext := scaled_mono hab m
  have hlow := scaled_mono (show a + 1 ≤ 10 ^ 15 by omega) m
  have hstep : 0 < 10 ^ m * unit := mul_pos (by positivity) unit_pos
  have hten : scaled (10 ^ 15) m = 10 ^ 15 * (10 ^ m * unit) := by
    rw [scaled, Nat.cast_pow, Nat.cast_ofNat, mul_assoc]
  rw [scaled_succ] at hnext hlow
  rw [hten] at hlow
  linarith

theorem border_sub_le (hr : 2 ^ 52 ≤ r) : border (r + 1) - border r ≤ spacing r ∧
    (2 ^ 52 - 1) * (spacing r : ℚ) ≤ border r := by
  have hpos : 0 < r := by omega
  have hmono : (spacing (r - 1) : ℚ) ≤ spacing r := Nat.cast_le.mpr (spacing_mono (Nat.sub_le r 1))
  have hmag : (2 : ℚ) ^ 52 * spacing r ≤ magnitude r := by exact_mod_cast le_magnitude hr
  have hnonneg : (0 : ℚ) ≤ spacing r := Nat.cast_nonneg _
  rw [border_succ, border_of_pos hpos]
  constructor <;> linarith

theorem FewDigits.unique (hx : FewDigits x) (hy : FewDigits y) (hr : 2 ^ 52 ≤ r) (h : RoundsTo x r)
    (h' : RoundsTo y r) : x = y := by
  have hlt {x y : ℚ} (hx : FewDigits x) (hy : FewDigits y) (h : RoundsTo x r) (h' : RoundsTo y r) :
      ¬x < y := fun hxy => by
    have hgap := hx.gap hy hxy
    obtain ⟨hwidth, hlow⟩ := border_sub_le hr
    have habove := h.above
    have hbelow := h'.below
    have hnonneg : (0 : ℚ) < spacing r := Nat.cast_pos.mpr (spacing_pos r)
    linarith
  exact le_antisymm (le_of_not_gt (hlt hy hx h' h)) (le_of_not_gt (hlt hx hy h h'))

/-- If a decimal of few digits rounds to a rank, the grid of fifteen digits is fine enough. -/
theorem gridPoint?_fifteen (hr : 0 < r) (hx : FewDigits x) (h : RoundsTo x r) :
    (gridPoint? r (decimalSize r - 15)).isSome := by
  obtain ⟨d, hd, e, rfl⟩ := hx
  rcases le_or_gt (decimalSize r - 15) e with hle | hgt
  · rw [scaled_refine hle] at h
    exact gridPoint?_isSome h
  · -- then the decimal is below the power of ten where the size of the value begins
    have hbelow : scaled d e ≤ scaled (10 ^ 14) (decimalSize r - 15) := by
      refine (scaled_mono hd.le e).trans ?_
      rw [scaled_ten_pow, scaled_ten_pow]
      exact mul_le_mul_of_nonneg_right (ten_zpow_le (by omega)) unit_pos.le
    have habove : scaled (10 ^ 14) (decimalSize r - 15) ≤ magnitude r := by
      rw [scaled_ten_pow]
      exact (decimalSize_bounds hr).1.trans' (mul_le_mul_of_nonneg_right (ten_zpow_le (by omega)) unit_pos.le)
    exact gridPoint?_isSome (h.between (.magnitude r) hbelow habove)

/-- A decimal of few digits is found again. -/
theorem shortest_eq_of_fifteen (hr : 2 ^ 52 ≤ r) (hx : FewDigits x) (h : RoundsTo x r) :
    scaled (shortest r).1 (shortest r).2 = x := by
  have hpos : 0 < r := by omega
  obtain ⟨n, c, hn, hc, hnone, heq⟩ := shortest_eq hpos
  obtain ⟨hround, hle⟩ := gridPoint?_eq_some hc
  have hfew : n < 15 := by
    refine Nat.lt_of_not_le fun hlt => ?_
    have hsome : (gridPoint? r (decimalSize r - (14 + 1 : Nat))).isSome := gridPoint?_fifteen hpos hx h
    rw [hnone 14 (by omega)] at hsome
    cases hsome
  have hlt := floorPoint_lt hpos (n + 1)
  have hpow : 10 ^ (n + 1) ≤ 10 ^ 15 := Nat.pow_le_pow_right (by decide) hfew
  rw [heq, (stripZeros_spec 20 c _).1]
  exact (fewDigits_scaled (by omega) _).unique hx hr hround h

end StageFlow.Number
