import StageFlow.Proofs.Number.Shortest
import StageFlow.Proofs.Version.Notation

/-!
# How numbers are written

A plain decimal has a sign or none, digits, and maybe a point with more digits behind it; what is written
like that, with blanks around it or not, is read as the nearest number (`ofPlain?_eq_some_iff`). In normal
notation there is no plus and no superfluous zero, so that a value is written in one way only
(`Decimal.Normal.unique`). The text of every finite number is a plain decimal in normal notation that
reads as that number (`text_eq`); a decimal in normal notation with few digits is the text of the number it
reads as.
-/

namespace StageFlow.Number

/-- A plain decimal. -/
structure Decimal where
  sign : Option Char := none
  whole : List Char
  fraction : List Char := []

namespace Decimal

variable {d d' : Decimal} {cs : List Char} {r : Nat}

/-- The parts are what they should be. -/
structure Proper (d : Decimal) : Prop where
  sign : ∀ c ∈ d.sign, c = '-' ∨ c = '+'
  whole : d.whole ≠ []
  digits : ∀ c ∈ d.whole ++ d.fraction, c.isDigit

/-- The point with the digits behind it. -/
def point (d : Decimal) : List Char := if d.fraction = [] then [] else '.' :: d.fraction

/-- How the decimal is written. -/
def chars (d : Decimal) : List Char := d.sign.toList ++ (d.whole ++ d.point)

def negative (d : Decimal) : Bool := d.sign = some '-'

/-- The number of all digits without the point. -/
def digits (d : Decimal) : Nat := digitsValue (d.whole ++ d.fraction)

/-- The value without the sign. -/
def value (d : Decimal) : ℚ := scaled d.digits (-d.fraction.length)

/-- The number that is nearest to the decimal. -/
def number (d : Decimal) : Number := ofDecimal d.negative d.digits (-d.fraction.length)

/-- There is no plus and nothing superfluous. -/
structure Normal (d : Decimal) : Prop where
  plus : d.sign ≠ some '+'
  whole : Leads d.whole
  fraction : d.fraction.getLast? ≠ some '0'
  zero : d.negative → d.digits ≠ 0

theorem exists_number (d : Decimal) : ∃ r, RoundsTo d.value r ∧ d.number = ofRank d.negative r := by
  have h := nearestRank_roundsTo (d.digits * tenTo (-(d.fraction.length : Int)).toNat)
    (tenTo_pos (- -(d.fraction.length : Int)).toNat)
  rw [← scaled_ratio] at h
  exact ⟨_, h, ofDecimal_eq h _⟩

/-! ## Reading -/

theorem ne_point {c : Char} (h : c.isDigit) : c ≠ '.' := by
  rintro rfl
  cases h

theorem Proper.whole_eq (h : d.Proper) : ∃ c cs, d.whole = c :: cs ∧ c.isDigit := by
  obtain ⟨c, cs, hwhole⟩ := List.exists_cons_of_ne_nil h.whole
  exact ⟨c, cs, hwhole, h.digits c (by simp [hwhole])⟩

theorem Proper.unsigned_chars (h : d.Proper) : unsigned d.chars = (d.negative, d.whole ++ d.point) := by
  unfold chars negative
  cases hsign : d.sign with
  | none =>
    obtain ⟨c, cs, hwhole, hc⟩ := h.whole_eq
    rw [hwhole]
    change unsigned (c :: (cs ++ d.point)) = (false, c :: (cs ++ d.point))
    unfold unsigned
    split
    next heq =>
      cases heq
      cases hc
    next heq =>
      cases heq
      cases hc
    next => rfl
  | some c =>
    rcases h.sign c hsign with rfl | rfl
    · rfl
    · rfl

theorem Proper.mem_point (h : d.Proper) {c : Char} (hc : c ∈ d.whole ++ d.point) : c.isDigit ∨ c = '.' := by
  rcases List.mem_append.mp hc with hc | hc
  · exact .inl (h.digits c (List.mem_append_left _ hc))
  · unfold point at hc
    split at hc
    · cases hc
    · rcases List.mem_cons.mp hc with rfl | hc
      · exact .inr rfl
      · exact .inl (h.digits c (List.mem_append_right _ hc))

theorem Proper.trim_chars (h : d.Proper) : Text.trim d.chars = d.chars := by
  have hblank : ∀ c ∈ d.chars, ¬Text.isBlank c := fun c hc => by
    rcases List.mem_append.mp hc with hc | hc
    · rcases h.sign c (Option.mem_toList.mp hc) with rfl | rfl <;> decide
    · rcases h.mem_point hc with hc | rfl
      · exact Version.not_isBlank_of_isAlphanum (.inl (Version.isAlphanum_of_isDigit hc))
      · decide
  have hne : d.chars ≠ [] := by
    obtain ⟨c, cs, hwhole, -⟩ := h.whole_eq
    simp [chars, hwhole]
  have htrim : Text.trim ([] ++ d.chars ++ []) = d.chars ++ Text.trimRight [] :=
    Text.trim_append (fun c hc => by cases hc) hblank hne []
  simpa [Text.trimRight] using htrim

theorem Proper.ofPointed_eq (h : d.Proper) (negative : Bool) :
    ofPointed negative (d.whole ++ d.point) 0 = ofDecimal negative d.digits (-d.fraction.length) := by
  have hwhole : ∀ c ∈ d.whole, c ≠ '.' := fun c hc => ne_point (h.digits c (List.mem_append_left _ hc))
  have hfraction : ∀ c ∈ d.fraction, c ≠ '.' := fun c hc =>
    ne_point (h.digits c (List.mem_append_right _ hc))
  have hpoint : d.point.dropWhile (· ≠ '.') = d.point ∧ d.point.drop 1 = d.fraction ∧
      d.point.filter (· ≠ '.') = d.fraction := by
    unfold point
    split
    next hnil => simp [hnil]
    next =>
      refine ⟨rfl, rfl, ?_⟩
      rw [List.filter_cons_of_neg (by decide)]
      exact List.filter_eq_self.mpr fun c hc => decide_eq_true (hfraction c hc)
  have hdrop : (d.whole ++ d.point).dropWhile (· ≠ '.') = d.point := by
    rw [List.dropWhile_append_of_pos fun c hc => decide_eq_true (hwhole c hc), hpoint.1]
  have hfilter : (d.whole ++ d.point).filter (· ≠ '.') = d.whole ++ d.fraction := by
    rw [List.filter_append, hpoint.2.2, List.filter_eq_self.mpr fun c hc => decide_eq_true (hwhole c hc)]
  rw [ofPointed, hdrop, hfilter, hpoint.2.1, zero_sub]
  rfl

theorem Proper.not_mem_whole (h : d.Proper) : '.' ∉ d.whole := fun hc =>
  ne_point (h.digits _ (List.mem_append_left _ hc)) rfl

theorem Proper.not_mem_fraction (h : d.Proper) : '.' ∉ d.fraction := fun hc =>
  ne_point (h.digits _ (List.mem_append_right _ hc)) rfl

/-- What passes the checks. -/
def Accepted (ds : List Char) : Prop :=
  ¬(ds.isEmpty || ds.head? = some '.' || ds.getLast? = some '.' ||
    !ds.all (fun c => c.isDigit || c = '.') || 1 < ds.count '.')

theorem accepted_iff {ds : List Char} : Accepted ds ↔ ds ≠ [] ∧ ds.head? ≠ some '.' ∧
    ds.getLast? ≠ some '.' ∧ (∀ c ∈ ds, c.isDigit ∨ c = '.') ∧ ds.count '.' ≤ 1 := by
  simp only [Accepted, Bool.or_eq_true, Bool.not_eq_true', decide_eq_true_eq, not_or, and_assoc,
    List.isEmpty_iff, Bool.not_eq_false, List.all_eq_true, Nat.not_lt]

theorem Proper.accepted (h : d.Proper) : Accepted (d.whole ++ d.point) := by
  obtain ⟨c, cs, hwhole, hc⟩ := h.whole_eq
  have hcount : d.whole.count '.' = 0 := List.count_eq_zero.mpr h.not_mem_whole
  refine accepted_iff.mpr ⟨by simp [hwhole], ?_, fun hlast => ?_, fun c => h.mem_point, ?_⟩
  · rw [hwhole]
    exact fun heq => ne_point hc (Option.some.inj heq)
  · unfold point at hlast
    split at hlast
    next =>
      rw [List.append_nil] at hlast
      exact h.not_mem_whole (List.mem_of_getLast? hlast)
    next hne =>
      rw [← List.singleton_append, ← List.append_assoc, List.getLast?_append_of_ne_nil _ hne] at hlast
      exact h.not_mem_fraction (List.mem_of_getLast? hlast)
  · unfold point
    split
    next => simp [hcount]
    next => simp [hcount, List.count_eq_zero.mpr h.not_mem_fraction]

theorem exists_of_accepted {ds : List Char} (h : Accepted ds) :
    ∃ d : Decimal, d.Proper ∧ d.sign = none ∧ d.whole ++ d.point = ds := by
  obtain ⟨hne, hhead, hlast, hall, hcount⟩ := accepted_iff.mp h
  have hdigit {c : Char} (hc : c ∈ ds) (hp : c ≠ '.') : c.isDigit := (hall c hc).resolve_right hp
  by_cases hmem : '.' ∈ ds
  · obtain ⟨whole, fraction, rfl, hwhole⟩ := List.eq_append_cons_of_mem hmem
    have hfraction : '.' ∉ fraction := by
      rw [List.count_append, List.count_cons_self] at hcount
      exact List.count_eq_zero.mp (by omega)
    have hne : fraction ≠ [] := by
      rintro rfl
      exact hlast List.getLast?_concat
    refine ⟨⟨none, whole, fraction⟩, ⟨nofun, ?_, fun c hc => ?_⟩, rfl, ?_⟩
    · rintro rfl
      exact hhead rfl
    · rcases List.mem_append.mp hc with hc | hc
      · exact hdigit (List.mem_append_left _ hc) fun heq => hwhole (heq ▸ hc)
      · exact hdigit (List.mem_append_right _ (List.mem_cons_of_mem _ hc)) fun heq => hfraction (heq ▸ hc)
    · rw [point, if_neg hne]
  · refine ⟨⟨none, ds, []⟩, ⟨nofun, hne, fun c hc => ?_⟩, rfl, List.append_nil ds⟩
    rw [List.append_nil] at hc
    exact hdigit hc fun heq => hmem (heq ▸ hc)

theorem exists_sign (cs : List Char) : ∃ sign : Option Char, (∀ c ∈ sign, c = '-' ∨ c = '+') ∧
    cs = sign.toList ++ (unsigned cs).2 ∧ (unsigned cs).1 = decide (sign = some '-') := by
  unfold unsigned
  split
  next => exact ⟨some '-', by simp, rfl, rfl⟩
  next => exact ⟨some '+', by simp, rfl, rfl⟩
  next => exact ⟨none, nofun, rfl, rfl⟩

/-- Plain decimals are what is read. -/
theorem ofPlain?_eq_some_iff {n : Number} :
    ofPlain? cs = some n ↔ ∃ d : Decimal, d.Proper ∧ Text.trim cs = d.chars ∧ d.number = n := by
  constructor
  · intro h
    obtain ⟨sign, hsign, hcs, hnegative⟩ := exists_sign (Text.trim cs)
    obtain ⟨⟨negative, ds⟩, hp⟩ : ∃ p, unsigned (Text.trim cs) = p := ⟨_, rfl⟩
    rw [hp] at hcs hnegative
    rw [ofPlain?, hp] at h
    obtain ⟨haccepted, heq⟩ := Option.ite_none_left_eq_some.mp h
    obtain ⟨d, hd, -, hds⟩ := exists_of_accepted haccepted
    refine ⟨{ d with sign }, ⟨hsign, hd.whole, hd.digits⟩, ?_, ?_⟩
    · exact hcs.trans (congrArg (sign.toList ++ ·) hds.symm)
    · rw [← Option.some.inj heq, ← hds, hd.ofPointed_eq]
      exact congrArg (ofDecimal · d.digits (-d.fraction.length)) hnegative.symm
  · rintro ⟨d, h, htrim, rfl⟩
    rw [ofPlain?, htrim, h.unsigned_chars]
    exact (if_neg h.accepted).trans (congrArg some (h.ofPointed_eq _))

theorem Proper.whole_point_injective (h : d.Proper) (h' : d'.Proper)
    (heq : d.whole ++ d.point = d'.whole ++ d'.point) : d.whole = d'.whole ∧ d.fraction = d'.fraction := by
  have htake {d : Decimal} (h : d.Proper) : (d.whole ++ d.point).takeWhile (· ≠ '.') = d.whole := by
    have hwhole : ∀ c ∈ d.whole, decide (c ≠ '.') = true := fun c hc =>
      decide_eq_true fun heq => h.not_mem_whole (heq ▸ hc)
    rw [List.takeWhile_append_of_pos hwhole, point]
    split <;> simp
  have hwhole : d.whole = d'.whole := by rw [← htake h, heq, htake h']
  rw [hwhole] at heq
  have hpoint := List.append_cancel_left heq
  refine ⟨hwhole, ?_⟩
  unfold point at hpoint
  split at hpoint <;> split at hpoint <;> simp_all

theorem Proper.chars_injective (h : d.Proper) (h' : d'.Proper) (heq : d.chars = d'.chars) : d = d' := by
  have hunsigned := congrArg unsigned heq
  rw [h.unsigned_chars, h'.unsigned_chars, Prod.mk.injEq] at hunsigned
  obtain ⟨hwhole, hfraction⟩ := h.whole_point_injective h' hunsigned.2
  rw [chars, chars, hunsigned.2, List.append_left_inj] at heq
  obtain ⟨sign, whole, fraction⟩ := d
  obtain ⟨sign', whole', fraction'⟩ := d'
  cases hwhole
  cases hfraction
  cases sign <;> cases sign' <;> simp_all

/-! ## Normal notation -/

theorem value_eq_iff : d.value = d'.value ↔
    d.digits * 10 ^ d'.fraction.length = d'.digits * 10 ^ d.fraction.length := by
  rw [value, value, scaled, scaled, mul_left_inj' unit_pos.ne', zpow_neg, zpow_neg, ← div_eq_mul_inv,
    ← div_eq_mul_inv, div_eq_div_iff (by positivity) (by positivity), zpow_natCast, zpow_natCast]
  exact_mod_cast Iff.rfl

/-- If a decimal had fewer places than another one of its value, the latter would end in a zero. -/
theorem Normal.fraction_length_le (hd : d.Proper) (h : d.Normal) (heq : d.value = d'.value) :
    d.fraction.length ≤ d'.fraction.length := by
  refine Nat.le_of_not_lt fun hlt => ?_
  have hne : d.fraction ≠ [] := List.ne_nil_of_length_pos (by omega)
  obtain ⟨k, hk⟩ : ∃ k, d.fraction.length = d'.fraction.length + (k + 1) :=
    ⟨d.fraction.length - d'.fraction.length - 1, by omega⟩
  have hpos : 0 < 10 ^ d'.fraction.length := Nat.pow_pos (by decide)
  rw [value_eq_iff, hk, Nat.pow_add, Nat.mul_left_comm, Nat.mul_comm] at heq
  have hdigits : d.digits = d'.digits * 10 ^ k * 10 := by
    rw [Nat.mul_assoc, ← Nat.pow_succ]
    exact Nat.eq_of_mul_eq_mul_left hpos heq
  refine h.fraction ?_
  rw [← List.getLast?_append_of_ne_nil d.whole hne,
    getLast?_eq_zero_iff (List.append_ne_nil_of_right_ne_nil _ hne) hd.digits]
  exact (congrArg (· % 10) hdigits).trans (Nat.mul_mod_left _ 10)

theorem digits_eq_zero (h : d.value = 0) : d.digits = 0 := by
  have hpos : (0 : ℚ) < 10 ^ (-(d.fraction.length : Int)) * unit := mul_pos (by positivity) unit_pos
  rw [value, scaled, mul_assoc] at h
  exact_mod_cast (mul_eq_zero.mp h).resolve_right hpos.ne'

/-- In normal notation a value is written in one way. -/
theorem Normal.unique (hd : d.Proper) (h : d.Normal) (hd' : d'.Proper) (h' : d'.Normal)
    (hsign : d.negative = d'.negative) (heq : d.value = d'.value) : d = d' := by
  have hlen : d.fraction.length = d'.fraction.length :=
    Nat.le_antisymm (h.fraction_length_le hd heq) (h'.fraction_length_le hd' heq.symm)
  have hpos : 0 < 10 ^ d'.fraction.length := Nat.pow_pos (by decide)
  rw [value_eq_iff, hlen] at heq
  have hdigits : d.digits = d'.digits := Nat.eq_of_mul_eq_mul_right hpos heq
  have hdigit {d : Decimal} (hd : d.Proper) :
      (∀ c ∈ d.whole, c.isDigit) ∧ ∀ c ∈ d.fraction, c.isDigit := List.forall_mem_append.mp hd.digits
  have hlt := digitsValue_lt (hdigit hd).2
  have hlt' := digitsValue_lt (hdigit hd').2
  rw [digits, digits, digitsValue_append, digitsValue_append, hlen] at hdigits
  rw [hlen] at hlt
  have hwhole := congrArg (· / 10 ^ d'.fraction.length) hdigits
  have hfraction := congrArg (· % 10 ^ d'.fraction.length) hdigits
  simp only [Nat.mul_comm _ (10 ^ d'.fraction.length), Nat.mul_add_div hpos, Nat.div_eq_of_lt, hlt, hlt',
    Nat.mul_add_mod, Nat.mod_eq_of_lt, Nat.add_zero] at hwhole hfraction
  have hplus {d : Decimal} (hd : d.Proper) (h : d.Normal) :
      d.sign = if d.negative then some '-' else none := by
    cases hsign : d.sign with
    | none => simp [negative, hsign]
    | some c =>
      rcases hd.sign c hsign with rfl | rfl
      · simp [negative, hsign]
      · exact absurd hsign h.plus
  have hw : d.whole = d'.whole := by
    rw [← digitsOf_digitsValue hd.whole (hdigit hd).1 h.whole, hwhole,
      digitsOf_digitsValue hd'.whole (hdigit hd').1 h'.whole]
  have hf : d.fraction = d'.fraction := eq_of_digitsValue_eq (hdigit hd).2 (hdigit hd').2 hlen hfraction
  obtain ⟨sign, whole, fraction⟩ := d
  obtain ⟨sign', whole', fraction'⟩ := d'
  obtain rfl : sign = sign' := (hplus hd h).trans (hsign ▸ (hplus hd' h').symm)
  cases hw
  cases hf
  rfl

end Decimal

/-! ## Writing -/

namespace Decimal

variable {d : Nat} {e : Int} {negative : Bool}

theorem withSign_eq (negative : Bool) (cs : List Char) :
    withSign negative cs = (if negative then some '-' else none).toList ++ cs := by
  cases negative <;> rfl

theorem negative_ite (negative : Bool) (whole fraction : List Char) :
    Decimal.negative ⟨if negative then some '-' else none, whole, fraction⟩ = negative := by
  cases negative <;> rfl

/-- What is written by placing the point in a row of digits. -/
structure Writes (x : Decimal) (negative : Bool) (d : Nat) (e : Int) : Prop where
  proper : x.Proper
  normal : x.Normal
  chars : x.chars = withSign negative (positional d e)
  negative : x.negative = negative
  value : x.value = scaled d e

/-- A decimal with a minus or without a sign. -/
theorem proper_of {whole fraction : List Char} (negative : Bool) (hwhole : whole ≠ [])
    (hdigits : ∀ c ∈ whole ++ fraction, c.isDigit) :
    Proper ⟨if negative then some '-' else none, whole, fraction⟩ where
  sign c hc := by
    cases negative with
    | true => exact .inl (Option.some.inj hc).symm
    | false => cases hc
  whole := hwhole
  digits := hdigits

theorem normal_of {whole fraction : List Char} (negative : Bool) (hwhole : Leads whole)
    (hfraction : fraction.getLast? ≠ some '0')
    (hzero : negative → digitsValue (whole ++ fraction) ≠ 0) :
    Normal ⟨if negative then some '-' else none, whole, fraction⟩ where
  plus h := by cases negative <;> cases h
  whole := hwhole
  fraction := hfraction
  zero h := hzero ((negative_ite negative whole fraction).symm.trans h)

theorem getLast?_digitsOf (h : d % 10 ≠ 0) : (digitsOf d).getLast? ≠ some '0' := fun hlast => h <| by
  have hmod := (getLast?_eq_zero_iff (digitsOf_ne_nil d) fun c => isDigit_of_mem_digitsOf).mp hlast
  rwa [digitsValue_digitsOf] at hmod

theorem head?_digitsOf (hd : 0 < d) : (digitsOf d).head? ≠ some '0' := by
  rcases leads_digitsOf d with h | h
  · have := digitsValue_digitsOf d
    rw [h] at this
    exact absurd this hd.ne
  · exact h

/-- An integer, with zeros at its end. -/
theorem exists_writes_integer (negative : Bool) (he : 0 ≤ e) (h : 0 < d ∨ e = 0 ∧ negative = false) :
    ∃ x, Writes x negative d e := by
  have hvalue : digitsValue (digitsOf d ++ List.replicate e.toNat '0') = d * 10 ^ e.toNat := by
    rw [digitsValue_append, digitsValue_digitsOf, digitsValue_replicate, List.length_replicate, Nat.add_zero]
  have hdigits : ∀ c ∈ digitsOf d ++ List.replicate e.toNat '0' ++ [], c.isDigit := fun c hc => by
    rw [List.append_nil] at hc
    rcases List.mem_append.mp hc with hc | hc
    · exact isDigit_of_mem_digitsOf hc
    · rw [List.eq_of_mem_replicate hc]
      decide
  refine ⟨⟨if negative then some '-' else none, digitsOf d ++ List.replicate e.toNat '0', []⟩, ?_⟩
  refine ⟨proper_of negative (List.append_ne_nil_of_left_ne_nil (digitsOf_ne_nil d) _) hdigits,
    normal_of negative ?_ nofun ?_, ?_, negative_ite .., ?_⟩
  · rcases h with hd | ⟨rfl, -⟩
    · right
      rw [List.head?_append_of_ne_nil _ (digitsOf_ne_nil d)]
      exact head?_digitsOf hd
    · exact (List.append_nil (digitsOf d)).symm ▸ leads_digitsOf d
  · rintro rfl
    have hpos : 0 < d := h.resolve_right nofun
    rw [List.append_nil, hvalue]
    positivity
  · rw [withSign_eq, positional, if_pos he]
    simp [Decimal.chars, point]
  · rw [Decimal.value, digits, List.append_nil, hvalue, scaled_refine he, sub_zero]
    rfl

section
variable {places : Nat}

/-- The point stands among the digits. -/
theorem exists_writes_among (hplaces : 0 < places) (hlt : places < (digitsOf d).length) (hd : 0 < d)
    (hmod : d % 10 ≠ 0) : ∃ x, Writes x negative d (-(places : Int)) := by
  obtain ⟨n, hn⟩ : ∃ n, (digitsOf d).length = n + places := ⟨(digitsOf d).length - places, by omega⟩
  have hpositional : positional d (-(places : Int)) =
      (digitsOf d).take n ++ '.' :: (digitsOf d).drop n := by
    rw [positional, if_neg (by omega), neg_neg, Int.toNat_natCast, if_pos hlt, hn, Nat.add_sub_cancel]
  have hlen : ((digitsOf d).drop n).length = places := by
    rw [List.length_drop, hn, Nat.add_sub_cancel_left]
  have hne : (digitsOf d).drop n ≠ [] := List.ne_nil_of_length_pos (by omega)
  have happend : (digitsOf d).take n ++ (digitsOf d).drop n = digitsOf d := List.take_append_drop ..
  refine ⟨⟨if negative then some '-' else none, (digitsOf d).take n, (digitsOf d).drop n⟩, ?_⟩
  refine ⟨proper_of negative ?_ fun c hc => ?_, normal_of negative ?_ ?_ fun _ => ?_, ?_,
    negative_ite .., ?_⟩
  · exact List.ne_nil_of_length_pos (by rw [List.length_take]; omega)
  · exact isDigit_of_mem_digitsOf (happend ▸ hc)
  · right
    rw [List.head?_take, if_neg (by omega)]
    exact head?_digitsOf hd
  · rw [List.getLast?_drop, if_neg (by omega)]
    exact getLast?_digitsOf hmod
  · rw [happend, digitsValue_digitsOf]
    exact hd.ne'
  · rw [withSign_eq, hpositional, Decimal.chars, point, if_neg hne]
  · rw [Decimal.value, digits, happend, digitsValue_digitsOf, hlen]

/-- The point stands before the digits, with zeros between them. -/
theorem exists_writes_before (hplaces : 0 < places) (hge : (digitsOf d).length ≤ places) (hd : 0 < d)
    (hmod : d % 10 ≠ 0) : ∃ x, Writes x negative d (-(places : Int)) := by
  obtain ⟨n, hn⟩ : ∃ n, places = n + (digitsOf d).length := ⟨places - (digitsOf d).length, by omega⟩
  have hpositional : positional d (-(places : Int)) =
      '0' :: '.' :: List.replicate n '0' ++ digitsOf d := by
    rw [positional, if_neg (by omega), neg_neg, Int.toNat_natCast, if_neg hge.not_gt, hn, Nat.add_sub_cancel]
  have hlen : (List.replicate n '0' ++ digitsOf d).length = places := by
    rw [List.length_append, List.length_replicate, hn]
  have hne : List.replicate n '0' ++ digitsOf d ≠ [] :=
    List.append_ne_nil_of_right_ne_nil _ (digitsOf_ne_nil d)
  have hsum : digitsValue (['0'] ++ (List.replicate n '0' ++ digitsOf d)) = d := by
    rw [digitsValue_append, digitsValue_append, digitsValue_replicate, digitsValue_digitsOf]
    simp [digitsValue_singleton]
  refine ⟨⟨if negative then some '-' else none, ['0'], List.replicate n '0' ++ digitsOf d⟩, ?_⟩
  refine ⟨proper_of negative (List.cons_ne_nil _ _) fun c hc => ?_,
    normal_of negative (.inl rfl) ?_ fun _ => ?_, ?_, negative_ite .., ?_⟩
  · rcases List.mem_append.mp hc with hc | hc
    · rw [List.mem_singleton.mp hc]
      decide
    · rcases List.mem_append.mp hc with hc | hc
      · rw [List.eq_of_mem_replicate hc]
        decide
      · exact isDigit_of_mem_digitsOf hc
  · rw [List.getLast?_append_of_ne_nil _ (digitsOf_ne_nil d)]
    exact getLast?_digitsOf hmod
  · rw [hsum]
    exact hd.ne'
  · rw [withSign_eq, hpositional, Decimal.chars, point, if_neg hne]
    rfl
  · rw [Decimal.value, digits, hsum, hlen]

end

theorem exists_writes (hd : 0 < d) (hmod : d % 10 ≠ 0) (negative : Bool) (e : Int) :
    ∃ x, Writes x negative d e := by
  rcases le_or_gt 0 e with he | he
  · exact exists_writes_integer negative he (.inl hd)
  · obtain ⟨places, rfl⟩ : ∃ places : Nat, e = -(places : Int) := ⟨(-e).toNat, by omega⟩
    have hplaces : 0 < places := by omega
    rcases Nat.lt_or_ge places (digitsOf d).length with hlt | hge
    · exact exists_writes_among hplaces hlt hd hmod
    · exact exists_writes_before hplaces hge hd hmod

end Decimal

/-! ## The text of a number -/

section
variable {negative : Bool} {r : Fin (infiniteRank + 1)}

/-- The number is an integer that is written as one. -/
def IsShortInteger (r : Nat) : Prop :=
  magnitude r % twoTo 1074 = 0 ∧ magnitude r / twoTo 1074 < tenTo 15

theorem text_integer (negative : Bool) (hr : r.val < infiniteRank) (h : IsShortInteger r) :
    (text (.signed negative r)).toList =
      withSign (negative && magnitude r / twoTo 1074 ≠ 0) (positional (magnitude r / twoTo 1074) 0) := by
  have hintegral : integral? (.signed negative r) = some (negative, magnitude r / twoTo 1074) := by
    simp only [integral?, if_neg hr.ne, if_pos h.1]
  rw [text, hintegral]
  simp only [if_pos h.2, String.toList_ofList, positional, le_refl, if_true]
  exact congrArg (withSign _) (List.append_nil _).symm

theorem isShortInteger_zero : IsShortInteger 0 := by
  rw [IsShortInteger, magnitude_zero, Nat.zero_mod, Nat.zero_div]
  exact ⟨rfl, tenTo_pos 15⟩

theorem text_shortest (hr : r.val < infiniteRank) (h : ¬IsShortInteger r) :
    (text (.signed negative r)).toList =
      withSign negative (positional (shortest r).1 (shortest r).2) := by
  have hzero : r.val ≠ 0 := fun h0 => h (h0 ▸ isShortInteger_zero)
  have hshortest : shortestText (.signed negative r) =
      withSign negative (positional (shortest r).1 (shortest r).2) := by
    simp only [shortestText, if_neg hr.ne, if_neg hzero]
  by_cases hmod : magnitude r % twoTo 1074 = 0
  · have hlarge : ¬magnitude r / twoTo 1074 < tenTo 15 := fun hlt => h ⟨hmod, hlt⟩
    have hintegral : integral? (.signed negative r) = some (negative, magnitude r / twoTo 1074) := by
      simp only [integral?, if_neg hr.ne, if_pos hmod]
    rw [text, hintegral]
    simp only [if_neg hlarge, String.toList_ofList, hshortest]
  · have hintegral : integral? (.signed negative r) = none := by
      simp only [integral?, if_neg hr.ne, if_neg hmod]
    rw [text, hintegral]
    simp only [String.toList_ofList, hshortest]

theorem text_infinity (negative : Bool) : text (infinity negative) = if negative then "-inf" else "inf" := by
  have hintegral : integral? (infinity negative) = none := by
    simp [infinity, ofRank, integral?]
  rw [text, hintegral]
  cases negative <;> simp [infinity, ofRank, shortestText, withSign]

/-- The text of a finite number is a decimal in normal notation that rounds to it; a decimal of few digits
that does so, too, has the same value. -/
theorem text_eq (negative : Bool) (hr : r.val < infiniteRank) : ∃ d : Decimal, d.Proper ∧ d.Normal ∧
    (text (.signed negative r)).toList = d.chars ∧ d.negative = (negative && r.val ≠ 0) ∧
    RoundsTo d.value r ∧ (∀ x, FewDigits x → RoundsTo x r → 2 ^ 52 ≤ r.val → x = d.value) ∧
    (r.val = 0 → d.value = 0) := by
  by_cases h : IsShortInteger r
  · obtain ⟨i, hi⟩ : ∃ i, i = magnitude r / twoTo 1074 := ⟨_, rfl⟩
    have hmag : magnitude r = i * twoTo 1074 := by
      rw [hi, Nat.div_mul_cancel (Nat.dvd_of_mod_eq_zero h.1)]
    have hzero : r.val = 0 ↔ i = 0 := by
      rw [← magnitude_strictMono.injective.eq_iff, magnitude_zero, hmag, Nat.mul_eq_zero,
        or_iff_left (twoTo_pos _).ne']
    have htext := text_integer negative hr h
    rw [← hi] at htext
    obtain ⟨d, hd⟩ := Decimal.exists_writes_integer (d := i) (negative && i ≠ 0) le_rfl <| by
      rcases Nat.eq_zero_or_pos i with h0 | h0
      · exact .inr ⟨rfl, by simp [h0]⟩
      · exact .inl h0
    have hvalue : d.value = magnitude r := by
      rw [hd.value, hmag, scaled, unit_eq, Nat.cast_mul, zpow_zero, mul_one]
    refine ⟨d, hd.proper, hd.normal, htext.trans hd.chars.symm, ?_, ?_, fun x hx hround hfull => ?_,
      fun h0 => ?_⟩
    · simp only [hd.negative, ne_eq, hzero]
    · rw [hvalue]
      exact .magnitude r
    · have hlt : i < 10 ^ 15 := hi ▸ h.2
      refine hx.unique (hd.value ▸ fewDigits_scaled hlt.le 0) hfull hround ?_
      rw [hvalue]
      exact .magnitude r
    · rw [hvalue, h0, magnitude_zero, Nat.cast_zero]
  · have hpos : 0 < r.val := Nat.pos_of_ne_zero fun h0 => h (h0 ▸ isShortInteger_zero)
    obtain ⟨hround, hmod⟩ := shortest_roundsTo hpos
    obtain ⟨d, hd⟩ := Decimal.exists_writes (pos_of_roundsTo hpos hround) hmod negative (shortest r).2
    refine ⟨d, hd.proper, hd.normal, (text_shortest hr h).trans hd.chars.symm, ?_, hd.value ▸ hround,
      fun x hx hround hfull => ?_, fun h0 => absurd h0 hpos.ne'⟩
    · rw [hd.negative]
      simp [hpos.ne']
    · rw [hd.value, shortest_eq_of_fifteen hfull hx hround]

end

section
variable {r : Nat} {d : Decimal}

theorem ofRank_eq (negative : Bool) (hr : r < infiniteRank) :
    ofRank negative r = .signed negative ⟨r, Nat.lt_succ_of_lt hr⟩ := by
  simp only [ofRank, Nat.min_eq_left hr.le]

theorem ofRank_eq_infinity (negative : Bool) (hr : infiniteRank ≤ r) :
    ofRank negative r = infinity negative := by
  simp only [infinity, ofRank, Nat.min_eq_right hr, Nat.min_self]

/-- A zero loses its sign. -/
theorem text_ofRank_zero (negative : Bool) : text (ofRank negative 0) = "0" := by
  have hr : 0 < infiniteRank := by decide
  have htext := text_integer negative (r := ⟨0, Nat.lt_succ_of_lt hr⟩) hr isShortInteger_zero
  have hzero : magnitude 0 / twoTo 1074 = 0 := by rw [magnitude_zero, Nat.zero_div]
  rw [ofRank_eq negative hr, ← String.toList_inj, htext, hzero]
  simp [withSign, positional, digitsOf]

/-- The text of a finite number reads as a number with the same text. -/
theorem text_reads (negative : Bool) (hr : r < infiniteRank) :
    ∃ d : Decimal, d.Proper ∧ d.Normal ∧ (text (ofRank negative r)).toList = d.chars ∧
      d.negative = (negative && r ≠ 0) ∧ RoundsTo d.value r ∧ d.number.text = text (ofRank negative r) := by
  have heq := ofRank_eq negative hr
  obtain ⟨d, hd, hnormal, hchars, hnegative, hround, -, -⟩ := text_eq negative (r := ⟨r, _⟩) hr
  rw [← heq] at hchars
  refine ⟨d, hd, hnormal, hchars, hnegative, hround, ?_⟩
  have hnumber : d.number = ofRank d.negative r := ofDecimal_eq hround _
  rw [hnumber, hnegative]
  rcases Nat.eq_zero_or_pos r with rfl | hpos
  · rw [text_ofRank_zero, text_ofRank_zero]
  · simp [hpos.ne']

/-- Zero, or a value of few digits that is neither too small for full precision nor too large. -/
def IsModerate (x : ℚ) : Prop :=
  x = 0 ∨ FewDigits x ∧ magnitude (2 ^ 52) ≤ x ∧ x ≤ magnitude (infiniteRank - 1)

/-- A decimal in normal notation with a moderate value is the text of the number it reads as. -/
theorem Decimal.Normal.text_number (hd : d.Proper) (h : d.Normal) (hvalue : IsModerate d.value) :
    d.number.text.toList = d.chars := by
  obtain ⟨r, hround, hnumber⟩ := d.exists_number
  have hcase : r = 0 ∧ d.value = 0 ∨ 2 ^ 52 ≤ r ∧ r < infiniteRank ∧ FewDigits d.value := by
    rcases hvalue with h0 | ⟨hfew, hlow, hhigh⟩
    · refine .inl ⟨hround.unique ?_, h0⟩
      rw [h0, ← Nat.cast_zero, ← magnitude_zero]
      exact .magnitude 0
    · have hle := hround.mono (.magnitude _) hhigh
      have hpos : 0 < infiniteRank := by decide
      exact .inr ⟨(RoundsTo.magnitude _).mono hround hlow, by omega, hfew⟩
  have hr : r < infiniteRank := by
    rcases hcase with ⟨rfl, -⟩ | ⟨-, hr, -⟩
    · decide
    · exact hr
  obtain ⟨d', hd', hnormal', hchars, hnegative, -, hfew', hzero'⟩ := text_eq d.negative (r := ⟨r, _⟩) hr
  rw [hnumber, ofRank_eq _ hr, hchars]
  congr 1
  rcases hcase with ⟨h0, hzero⟩ | ⟨hfull, -, hfew⟩
  · have hplus : d.negative = false := Bool.eq_false_iff.mpr fun hneg => h.zero hneg (digits_eq_zero hzero)
    refine hnormal'.unique hd' hd h ?_ ((hzero' h0).trans hzero.symm)
    rw [hnegative, hplus, Bool.false_and]
  · refine hnormal'.unique hd' hd h ?_ (hfew' _ hfew hround hfull).symm
    have hpos : r ≠ 0 := by omega
    simp [hnegative, hpos]

end

end StageFlow.Number
