import StageFlow.Proofs.Number.Digits

/-!
# Rounding

Values are rationals in units of `2 ^ (-1074)`. Halfway between the values of neighbouring ranks there is
a border, and what lies between two borders rounds to the rank between them; a border goes to the even
rank (`Number.RoundsTo`). Every value rounds to one rank only (`RoundsTo.unique`), which is nearest to it
(`RoundsTo.nearest`) and which `Number.nearestRank` computes (`nearestRank_eq_iff`).
-/

namespace StageFlow.Number

variable {r s : Nat} {x y z : ℚ}

theorem twoTo_eq (k : Nat) : twoTo k = 2 ^ k := rfl

theorem tenTo_eq (k : Nat) : tenTo k = 10 ^ k := rfl

/-! ## The row of values -/

/-- How far the next value is away. -/
def spacing (r : Nat) : Nat := 2 ^ (r / 2 ^ 52 - 1)

theorem spacing_pos (r : Nat) : 0 < spacing r := Nat.two_pow_pos _

theorem magnitude_add {k t : Nat} (ht : t ≤ 2 ^ 53) (h : k = 0 ∨ 2 ^ 52 ≤ t) :
    magnitude (k * 2 ^ 52 + t) = t * 2 ^ k := by
  rw [magnitude, twoTo_eq, twoTo_eq]
  rcases h with rfl | h
  · split
    next => omega
    next hle =>
      rcases Nat.lt_or_ge t (2 ^ 53) with hlt | hge
      · have hdiv : (0 * 2 ^ 52 + t) / 2 ^ 52 = 1 := by omega
        have hmod : 2 ^ 52 + (0 * 2 ^ 52 + t) % 2 ^ 52 = t := by omega
        rw [hdiv, hmod]
      · cases Nat.le_antisymm ht hge
        decide
  · rw [if_neg (by omega)]
    rcases Nat.lt_or_ge t (2 ^ 53) with hlt | hge
    · have hdiv : (k * 2 ^ 52 + t) / 2 ^ 52 - 1 = k := by omega
      have hmod : 2 ^ 52 + (k * 2 ^ 52 + t) % 2 ^ 52 = t := by omega
      rw [hdiv, hmod]
    · have hdiv : (k * 2 ^ 52 + t) / 2 ^ 52 - 1 = k + 1 := by omega
      have hmod : 2 ^ 52 + (k * 2 ^ 52 + t) % 2 ^ 52 = 2 ^ 52 := by omega
      have ht' : t = 2 ^ 52 * 2 := by omega
      rw [hdiv, hmod, ht', Nat.mul_assoc, ← Nat.pow_succ']

theorem exists_parts (r : Nat) :
    ∃ k t, r = k * 2 ^ 52 + t ∧ t < 2 ^ 53 ∧ (k = 0 ∨ 2 ^ 52 ≤ t) ∧ r / 2 ^ 52 - 1 = k :=
  ⟨r / 2 ^ 52 - 1, r - (r / 2 ^ 52 - 1) * 2 ^ 52, by omega⟩

theorem magnitude_succ (r : Nat) : magnitude (r + 1) = magnitude r + spacing r := by
  obtain ⟨k, t, rfl, hlt, h, hk⟩ := exists_parts r
  have hsucc : k = 0 ∨ 2 ^ 52 ≤ t + 1 := h.imp_right fun h => h.trans (Nat.le_succ t)
  rw [Nat.add_assoc, magnitude_add hlt hsucc, magnitude_add hlt.le h, spacing, hk, Nat.succ_mul]

theorem magnitude_strictMono : StrictMono magnitude :=
  strictMono_nat_of_lt_succ fun r => by
    rw [magnitude_succ]
    exact Nat.lt_add_of_pos_right (spacing_pos r)

theorem magnitude_succ_le (r : Nat) : magnitude (r + 1) ≤ 2 ^ 53 * spacing r := by
  obtain ⟨k, t, rfl, hlt, h, hk⟩ := exists_parts r
  rw [magnitude_succ, magnitude_add hlt.le h, spacing, hk, ← Nat.succ_mul]
  exact Nat.mul_le_mul_right _ hlt

/-- From `2 ^ 52` on, ranks stand for values of full precision. -/
theorem le_magnitude (hr : 2 ^ 52 ≤ r) : 2 ^ 52 * spacing r ≤ magnitude r := by
  obtain ⟨k, t, rfl, hlt, h, hk⟩ := exists_parts r
  have ht : 2 ^ 52 ≤ t := by omega
  rw [magnitude_add hlt.le h, spacing, hk]
  exact Nat.mul_le_mul_right _ ht

theorem magnitude_pred (hr : 0 < r) : magnitude r = magnitude (r - 1) + spacing (r - 1) := by
  obtain ⟨r, rfl⟩ := Nat.exists_eq_add_of_lt hr
  exact magnitude_succ _

theorem spacing_mono : Monotone spacing := fun _ _ h =>
  Nat.pow_le_pow_right Nat.two_pos (Nat.sub_le_sub_right (Nat.div_le_div_right h) 1)

theorem magnitude_zero : magnitude 0 = 0 := by decide

/-! ## Borders -/

/-- Halfway between the value of a rank and the value before. -/
def border (r : Nat) : ℚ := (magnitude (r - 1) + magnitude r) / 2

theorem border_zero : border 0 = 0 := by
  simp [border, magnitude_zero]

theorem border_succ (r : Nat) : border (r + 1) = magnitude r + (spacing r : ℚ) / 2 := by
  rw [border, Nat.add_sub_cancel, magnitude_succ, Nat.cast_add]
  ring

theorem border_of_pos (hr : 0 < r) : border r = magnitude r - (spacing (r - 1) : ℚ) / 2 := by
  rw [border, magnitude_pred hr, Nat.cast_add]
  ring

theorem magnitude_lt_border (r : Nat) : (magnitude r : ℚ) < border (r + 1) := by
  have hpos : (0 : ℚ) < spacing r := Nat.cast_pos.mpr (spacing_pos r)
  rw [border_succ]
  linarith

theorem border_lt_magnitude (hr : 0 < r) : border r < magnitude r := by
  have hpos : (0 : ℚ) < spacing (r - 1) := Nat.cast_pos.mpr (spacing_pos _)
  rw [border_of_pos hr]
  linarith

theorem border_le_magnitude (r : Nat) : border r ≤ magnitude r := by
  rcases Nat.eq_zero_or_pos r with rfl | hr
  · rw [border_zero, magnitude_zero, Nat.cast_zero]
  · exact (border_lt_magnitude hr).le

theorem border_strictMono : StrictMono border :=
  strictMono_nat_of_lt_succ fun r => (border_le_magnitude r).trans_lt (magnitude_lt_border r)

/-- A value rounds to a rank. -/
structure RoundsTo (x : ℚ) (r : Nat) : Prop where
  above : border r ≤ x
  below : x ≤ border (r + 1)
  even : x = border r ∨ x = border (r + 1) → r % 2 = 0

namespace RoundsTo

theorem of_lt (habove : border r < x) (hbelow : x < border (r + 1)) : RoundsTo x r where
  above := habove.le
  below := hbelow.le
  even h := by
    rcases h with h | h
    · exact absurd h habove.ne'
    · exact absurd h hbelow.ne

theorem magnitude (r : Nat) : RoundsTo (magnitude r) r where
  above := border_le_magnitude r
  below := (magnitude_lt_border r).le
  even h := by
    rcases Nat.eq_zero_or_pos r with rfl | hr
    · rfl
    · exact (of_lt (border_lt_magnitude hr) (magnitude_lt_border r)).even h

theorem unique (h : RoundsTo x r) (h' : RoundsTo x s) : r = s := by
  -- of two ranks, the higher one begins where the lower one ends, and one of them is odd
  have hlt {r s : Nat} (h : RoundsTo x r) (h' : RoundsTo x s) : ¬r < s := fun hrs => by
    have hmono : border (r + 1) ≤ border s := border_strictMono.monotone hrs
    have hr : x = border (r + 1) := h.below.antisymm (hmono.trans h'.above)
    have hs : x = border s := (h.below.trans hmono).antisymm h'.above
    have hnext : r + 1 = s := border_strictMono.injective (hr.symm.trans hs)
    have := h.even (.inr hr)
    have := h'.even (.inl hs)
    omega
  exact Nat.le_antisymm (Nat.le_of_not_lt (hlt h' h)) (Nat.le_of_not_lt (hlt h h'))

theorem between (hx : RoundsTo x r) (hz : RoundsTo z r) (hxy : x ≤ y) (hyz : y ≤ z) :
    RoundsTo y r where
  above := hx.above.trans hxy
  below := hyz.trans hz.below
  even h := by
    rcases h with rfl | rfl
    · exact hx.even (.inl (hxy.antisymm hx.above))
    · exact hz.even (.inr (hz.below.antisymm hyz))

theorem mono (hx : RoundsTo x r) (hy : RoundsTo y s) (hxy : x ≤ y) : r ≤ s := by
  refine Nat.le_of_not_lt fun hlt => ?_
  have hmono : border (s + 1) ≤ border r := border_strictMono.monotone hlt
  have heq : x = y := hxy.antisymm (hy.below.trans (hmono.trans hx.above))
  subst heq
  exact hlt.ne' (hx.unique hy)

/-- No other value is nearer than that of the rank. -/
theorem nearest (h : RoundsTo x r) (s : Nat) :
    |x - Number.magnitude r| ≤ |x - Number.magnitude s| := by
  rcases Nat.lt_trichotomy s r with hlt | rfl | hlt
  · have hle : (Number.magnitude s : ℚ) ≤ Number.magnitude (r - 1) :=
      Nat.cast_le.mpr (magnitude_strictMono.monotone (Nat.le_sub_one_of_lt hlt))
    have habove := h.above
    have hmono : (Number.magnitude (r - 1) : ℚ) ≤ Number.magnitude r :=
      Nat.cast_le.mpr (magnitude_strictMono.monotone (Nat.sub_le r 1))
    rw [border] at habove
    rw [abs_le, abs_of_nonneg (by linarith)]
    constructor <;> linarith
  · rfl
  · have hle : (Number.magnitude (r + 1) : ℚ) ≤ Number.magnitude s :=
      Nat.cast_le.mpr (magnitude_strictMono.monotone hlt)
    have hbelow := h.below
    have hmono : (Number.magnitude r : ℚ) ≤ Number.magnitude (r + 1) :=
      Nat.cast_le.mpr (magnitude_strictMono.monotone (Nat.le_succ r))
    rw [border, Nat.add_sub_cancel] at hbelow
    rw [abs_le, abs_sub_comm, abs_of_nonneg (by linarith)]
    constructor <;> linarith

end RoundsTo

/-! ## The nearest rank -/

theorem roundEven_cases (n d : Nat) :
    (roundEven n d = n / d ∧ 2 * (n % d) ≤ d ∧ (2 * (n % d) = d → n / d % 2 = 0)) ∨
    (roundEven n d = n / d + 1 ∧ d ≤ 2 * (n % d) ∧ (2 * (n % d) = d → n / d % 2 = 1)) := by
  rw [roundEven]
  split
  next h => exact .inl ⟨rfl, h.le, fun heq => absurd heq h.ne⟩
  next h =>
    split
    next h' => exact .inr ⟨rfl, h'.le, fun heq => absurd heq h'.ne'⟩
    next h' =>
      rcases Nat.mod_two_eq_zero_or_one (n / d) with heven | hodd
      · exact .inl ⟨by omega, by omega, fun _ => heven⟩
      · exact .inr ⟨by omega, by omega, fun _ => hodd⟩

/-- Nothing is rounded by more than a half, and by a half only to an even number. -/
theorem roundEven_half {n d : Nat} (hd : 0 < d) :
    |(n : ℚ) / d - roundEven n d| ≤ 1 / 2 ∧
      (|(n : ℚ) / d - roundEven n d| = 1 / 2 → roundEven n d % 2 = 0) := by
  have hpos : (0 : ℚ) < d := Nat.cast_pos.mpr hd
  have hdm : (n : ℚ) / d = (n / d : Nat) + (n % d : Nat) / d := by
    rw [eq_comm, ← eq_sub_iff_add_eq', ← mul_right_cancel_iff_of_pos hpos, sub_mul,
      div_mul_cancel₀ _ hpos.ne', div_mul_cancel₀ _ hpos.ne', eq_sub_iff_add_eq']
    exact_mod_cast Nat.div_add_mod' n d
  have hnonneg : (0 : ℚ) ≤ (n % d : Nat) / d := by positivity
  have hhalf : (2 * (n % d) = d ↔ ((n % d : Nat) : ℚ) / d = 1 / 2) ∧
      (2 * (n % d) ≤ d ↔ ((n % d : Nat) : ℚ) / d ≤ 1 / 2) ∧
      (d ≤ 2 * (n % d) ↔ 1 / 2 ≤ ((n % d : Nat) : ℚ) / d) := by
    rw [div_eq_iff hpos.ne', div_le_iff₀ hpos, le_div_iff₀ hpos, ← Nat.cast_inj (R := ℚ),
      ← Nat.cast_le (α := ℚ), ← Nat.cast_le (α := ℚ), Nat.cast_mul, Nat.cast_ofNat]
    refine ⟨⟨fun h => ?_, fun h => ?_⟩, ⟨fun h => ?_, fun h => ?_⟩, fun h => ?_, fun h => ?_⟩ <;> linarith
  have hlt : ((n % d : Nat) : ℚ) / d < 1 := by
    rw [div_lt_one hpos]
    exact_mod_cast Nat.mod_lt n hd
  rcases roundEven_cases n d with ⟨heq, hle, heven⟩ | ⟨heq, hle, hodd⟩
  · rw [heq, hdm, add_sub_cancel_left, abs_of_nonneg hnonneg]
    exact ⟨hhalf.2.1.mp hle, fun h => heven (hhalf.1.mpr h)⟩
  · have hle' := hhalf.2.2.mp hle
    rw [heq, hdm, Nat.cast_add, Nat.cast_one, abs_of_nonpos (by linarith)]
    refine ⟨by linarith, fun h => ?_⟩
    have := hodd (hhalf.1.mpr (by linarith))
    omega

/-- In units of `2 ^ k` a value is rounded to a natural number. -/
theorem roundsTo_of_half {k t : Nat} {v : ℚ} (ht : t ≤ 2 ^ 53) (hk : k = 0 ∨ 2 ^ 52 ≤ t) (hv : 0 ≤ v)
    (hlow : k = 0 ∨ 2 ^ 52 ≤ v) (hhalf : |v - t| ≤ 1 / 2) (heven : |v - t| = 1 / 2 → t % 2 = 0) :
    RoundsTo (v * 2 ^ k) (k * 2 ^ 52 + t) := by
  have hunit : (0 : ℚ) < 2 ^ k := by positivity
  have hmag : (magnitude (k * 2 ^ 52 + t) : ℚ) = t * 2 ^ k := by
    rw [magnitude_add ht hk]
    push_cast
    rfl
  have hnext : (t + 1 / 2) * 2 ^ k ≤ border (k * 2 ^ 52 + t + 1) := by
    have hexp : k ≤ (k * 2 ^ 52 + t) / 2 ^ 52 - 1 := by omega
    have hspacing : (2 : ℚ) ^ k ≤ spacing (k * 2 ^ 52 + t) := by
      exact_mod_cast Nat.pow_le_pow_right Nat.two_pos hexp
    rw [border_succ, hmag, add_mul, one_div_mul_eq_div]
    gcongr
  -- the spacing below the least number of full precision is narrower, but then nothing is rounded up
  have hprev : border (k * 2 ^ 52 + t) = (t - 1 / 2) * 2 ^ k ∨
      (t % 2 = 0 ∧ border (k * 2 ^ 52 + t) ≤ v * 2 ^ k) := by
    rcases Nat.eq_zero_or_pos t with rfl | hpos
    · obtain rfl : k = 0 := by omega
      refine .inr ⟨rfl, ?_⟩
      rw [Nat.zero_mul, Nat.add_zero, border_zero]
      positivity
    · by_cases hk' : k = 0 ∨ 2 ^ 52 ≤ t - 1
      · have hpred : k * 2 ^ 52 + t - 1 = k * 2 ^ 52 + (t - 1) := by omega
        left
        rw [border, hpred, hmag, magnitude_add (by omega) hk', Nat.cast_mul, Nat.cast_pred hpos]
        push_cast
        ring
      · obtain rfl : t = 2 ^ 52 := by omega
        refine .inr ⟨rfl, (border_le_magnitude _).trans ?_⟩
        rw [hmag]
        have hle := hlow.resolve_left fun h => hk' (.inl h)
        push_cast
        exact mul_le_mul_of_nonneg_right hle hunit.le
  have hdist := abs_le.mp hhalf
  refine ⟨?_, ?_, fun h => ?_⟩
  · rcases hprev with heq | ⟨-, hle⟩
    · rw [heq]
      exact mul_le_mul_of_nonneg_right (by linarith) hunit.le
    · exact hle
  · exact le_trans (mul_le_mul_of_nonneg_right (by linarith) hunit.le) hnext
  · suffices t % 2 = 0 by omega
    rcases h with h | h
    · rcases hprev with heq | ⟨hzero, -⟩
      · have hvt : v = t - 1 / 2 := mul_right_cancel₀ hunit.ne' (h.trans heq)
        exact heven (by rw [hvt, sub_sub_cancel_left, abs_neg, abs_of_pos one_half_pos])
      · exact hzero
    · have hvt : v = t + 1 / 2 :=
        le_antisymm (by linarith) (le_of_mul_le_mul_right (hnext.trans h.ge) hunit)
      exact heven (by rw [hvt, add_sub_cancel_left, abs_of_pos one_half_pos])

theorem nearestRank_roundsTo (p : Nat) {q : Nat} (hq : 0 < q) :
    RoundsTo ((p * twoTo 1074 : Nat) / q) (nearestRank p q) := by
  rw [nearestRank]
  generalize p * twoTo 1074 = P
  obtain ⟨k, hk⟩ : ∃ k, k = Nat.log2 (P / q) - 52 := ⟨_, rfl⟩
  have hd : 0 < q * 2 ^ k := Nat.mul_pos hq (Nat.two_pow_pos k)
  have hupper : P / (q * 2 ^ k) < 2 ^ 53 := by
    rw [← Nat.div_div_eq_div_mul, Nat.div_lt_iff_lt_mul (Nat.two_pow_pos k), ← Nat.pow_add]
    have hlt := Nat.lt_log2_self (n := P / q)
    exact hlt.trans_le (Nat.pow_le_pow_right Nat.two_pos (by omega))
  have hlower : k = 0 ∨ 2 ^ 52 ≤ P / (q * 2 ^ k) := by
    rcases Nat.eq_zero_or_pos k with h | h
    · exact .inl h
    · have hne : P / q ≠ 0 := fun h0 => by
        rw [h0, Nat.log2_zero] at hk
        omega
      right
      rw [← Nat.div_div_eq_div_mul, Nat.le_div_iff_mul_le (Nat.two_pow_pos k), ← Nat.pow_add]
      exact (Nat.pow_le_pow_right Nat.two_pos (by omega)).trans (Nat.log2_self_le hne)
  have hround := roundEven_cases P (q * 2 ^ k)
  obtain ⟨hhalf, heven⟩ := roundEven_half (n := P) hd
  have hscale : (P : ℚ) / q = P / (q * 2 ^ k : Nat) * 2 ^ k := by
    push_cast
    field_simp
  rw [← hk, twoTo_eq, twoTo_eq, hscale]
  refine roundsTo_of_half (by omega) (by omega) (by positivity) (hlower.imp_right fun h => ?_) hhalf heven
  exact (Nat.cast_le (α := ℚ)).mpr h |>.trans' (by norm_num) |>.trans Nat.cast_div_le

theorem nearestRank_eq_iff {p q : Nat} (hq : 0 < q) :
    nearestRank p q = r ↔ RoundsTo ((p * twoTo 1074 : Nat) / q) r :=
  ⟨fun h => h ▸ nearestRank_roundsTo p hq, fun h => (nearestRank_roundsTo p hq).unique h⟩

/-! ## Decimals -/

/-- How many units make one. -/
@[irreducible]
def unit : ℚ := twoTo 1074

theorem unit_eq : unit = twoTo 1074 := by rw [unit]

theorem unit_pos : 0 < unit := unit_eq ▸ Nat.cast_pos.mpr (twoTo_pos 1074)

/-- The value of `d · 10 ^ e`. -/
def scaled (d : Nat) (e : Int) : ℚ := d * 10 ^ e * unit

theorem scaled_zero (e : Int) : scaled 0 e = magnitude 0 := by
  rw [scaled, magnitude_zero, Nat.cast_zero, zero_mul, zero_mul]

theorem scaled_mono {d d' : Nat} (h : d ≤ d') (e : Int) : scaled d e ≤ scaled d' e := by
  have hle : (d : ℚ) ≤ d' := Nat.cast_le.mpr h
  have hunit := unit_pos
  unfold scaled
  gcongr

theorem scaled_ratio (d : Nat) (e : Int) :
    scaled d e = (d * tenTo e.toNat * twoTo 1074 : Nat) / (tenTo (-e).toNat : Nat) := by
  rw [scaled, unit_eq]
  generalize twoTo 1074 = u
  rcases le_total 0 e with he | he
  · lift e to Nat using he
    have h0 : (-(e : Int)).toNat = 0 := by omega
    simp [h0, tenTo_eq]
  · obtain ⟨k, hk⟩ : ∃ k : Nat, e = -(k : Int) := ⟨(-e).toNat, by omega⟩
    have h0 : e.toNat = 0 := by omega
    have hneg : (-e).toNat = k := by omega
    rw [h0, hneg, hk, zpow_neg, zpow_natCast, tenTo_zero, tenTo_eq]
    push_cast
    field_simp

theorem ten_zpow_le {j k : Int} (h : j ≤ k) : (10 : ℚ) ^ j ≤ 10 ^ k :=
  zpow_le_zpow_right₀ (by norm_num) h

theorem le_scaled {d : Nat} {e k : Int} (hd : 0 < d) (h : k < e + (digitsOf d).length) :
    10 ^ k * unit ≤ scaled d e := by
  have hpos : 0 < (digitsOf d).length := Nat.length_toDigits_pos
  have hle : (10 : ℚ) ^ ((digitsOf d).length - 1) ≤ d := by
    exact_mod_cast (digits_bounds hd).1
  refine mul_le_mul_of_nonneg_right ?_ unit_pos.le
  calc (10 : ℚ) ^ k
      ≤ 10 ^ (((digitsOf d).length - 1 : Nat) + e) := ten_zpow_le (by omega)
    _ = 10 ^ ((digitsOf d).length - 1) * 10 ^ e := by rw [zpow_add₀ (by norm_num), zpow_natCast]
    _ ≤ d * 10 ^ e := by gcongr

theorem scaled_lt {d : Nat} {e k : Int} (hd : 0 < d) (h : e + (digitsOf d).length ≤ k) :
    scaled d e < 10 ^ k * unit := by
  have hlt : (d : ℚ) < 10 ^ (digitsOf d).length := by
    exact_mod_cast (digits_bounds hd).2
  refine mul_lt_mul_of_pos_right ?_ unit_pos
  calc (d : ℚ) * 10 ^ e
      < 10 ^ (digitsOf d).length * 10 ^ e := by gcongr
    _ = 10 ^ (((digitsOf d).length : Int) + e) := by rw [zpow_add₀ (by norm_num), zpow_natCast]
    _ ≤ 10 ^ k := ten_zpow_le (by omega)

theorem ten_zpow_natCast (k : Nat) : (10 : ℚ) ^ (k : Int) = tenTo k := by
  rw [zpow_natCast, tenTo_eq, Nat.cast_pow, Nat.cast_ofNat]

theorem magnitude_infiniteRank_le : (magnitude infiniteRank : ℚ) ≤ 10 ^ (400 : Int) * unit := by
  have hle : magnitude infiniteRank ≤ tenTo 400 * twoTo 1074 := by decide +kernel
  have hten : (10 : ℚ) ^ (400 : Int) = tenTo 400 := ten_zpow_natCast 400
  rw [unit_eq, hten, ← Nat.cast_mul]
  exact Nat.cast_le.mpr hle

theorem border_one : border 1 = 1 / 2 := by
  rw [border_succ, magnitude_zero]
  norm_num [spacing]

theorem le_border_one : 10 ^ (-400 : Int) * unit ≤ border 1 := by
  have hle : ((2 * twoTo 1074 : Nat) : ℚ) ≤ tenTo 400 := Nat.cast_le.mpr (by decide +kernel)
  have hpos : (0 : ℚ) < tenTo 400 := Nat.cast_pos.mpr (tenTo_pos 400)
  have hten : (10 : ℚ) ^ (400 : Int) = tenTo 400 := ten_zpow_natCast 400
  rw [border_one, unit_eq, zpow_neg, hten, inv_mul_le_iff₀ hpos]
  rw [Nat.cast_mul, Nat.cast_ofNat] at hle
  linarith

/-- Reading rounds; exponents that are beyond all numbers make no difference. -/
theorem ofDecimal_eq {d : Nat} {e : Int} (h : RoundsTo (scaled d e) r) (negative : Bool) :
    ofDecimal negative d e = ofRank negative r := by
  have hratio : nearestRank (d * tenTo e.toNat) (tenTo (-e).toNat) = r :=
    (nearestRank_eq_iff (tenTo_pos _)).mpr (scaled_ratio d e ▸ h)
  rw [ofDecimal]
  split
  next h0 =>
    subst h0
    rw [(RoundsTo.magnitude 0).unique (scaled_zero e ▸ h)]
  next hd =>
    have hd := Nat.pos_of_ne_zero hd
    dsimp only
    split
    next hlarge =>
      have hle := magnitude_infiniteRank_le.trans (le_scaled hd hlarge)
      have hrank := (RoundsTo.magnitude infiniteRank).mono h hle
      simp [infinity, ofRank, hrank]
    split
    next hsmall =>
      have hlt := (scaled_lt (k := -400) hd hsmall.le).trans_le le_border_one
      have hnonneg : 0 ≤ scaled d e := by
        have := unit_pos
        unfold scaled
        positivity
      have hzero : RoundsTo (scaled d e) 0 := ⟨border_zero.trans_le hnonneg, hlt.le, fun _ => rfl⟩
      rw [hzero.unique h]
    split
    next he =>
      have h0 : (-e).toNat = 0 := by omega
      rw [ofRatio, ← hratio, h0, tenTo_zero]
    next he =>
      have h0 : e.toNat = 0 := by omega
      rw [ofRatio, ← hratio, h0, tenTo_zero, Nat.mul_one]

end StageFlow.Number
