import Mathlib
import StageFlow.Number.Decimal

/-!
# Rows of digits

A row of digits stands for a natural number, and one without zeros in front is what is written for it
(`digitsOf_digitsValue`).
-/

namespace StageFlow.Number

variable {ds as bs : List Char} {c : Char}

theorem digitsValue_append (as bs : List Char) :
    digitsValue (as ++ bs) = digitsValue as * 10 ^ bs.length + digitsValue bs := by
  refine (Nat.ofDigitChars_append (b := 10) 0).trans (Nat.ofDigitChars_eq_ofDigitChars_zero.trans ?_)
  rw [Nat.mul_comm]
  rfl

theorem digitsValue_singleton (c : Char) : digitsValue [c] = c.toNat - 48 := by
  simp [digitsValue]

theorem digitsValue_cons (c : Char) (cs : List Char) :
    digitsValue (c :: cs) = (c.toNat - 48) * 10 ^ cs.length + digitsValue cs := by
  rw [← List.singleton_append, digitsValue_append, digitsValue_singleton]

theorem digitsValue_replicate (k : Nat) : digitsValue (List.replicate k '0') = 0 :=
  Nat.ofDigitChars_replicate_zero.trans (Nat.mul_zero _)

theorem digitsOf_ne_nil (n : Nat) : digitsOf n ≠ [] := Nat.toDigits_ne_nil

theorem digitsValue_digitsOf (n : Nat) : digitsValue (digitsOf n) = n := Nat.ofDigitChars_ten_toDigits

theorem isDigit_of_mem_digitsOf {n : Nat} (h : c ∈ digitsOf n) : c.isDigit :=
  Nat.isDigit_of_mem_toDigits (by decide) (by decide) h

theorem isDigit_iff : c.isDigit ↔ 48 ≤ c.toNat ∧ c.toNat ≤ 57 := by
  simp only [Char.isDigit, Bool.and_eq_true, decide_eq_true_eq, ge_iff_le, UInt32.le_iff_toNat_le]
  rfl

theorem digits_bounds {d : Nat} (hd : 0 < d) :
    10 ^ ((digitsOf d).length - 1) ≤ d ∧ d < 10 ^ (digitsOf d).length := by
  have hpos : 0 < (digitsOf d).length := Nat.length_toDigits_pos
  have hiff {k : Nat} (hk : 0 < k) : (digitsOf d).length ≤ k ↔ d < 10 ^ k :=
    Nat.length_toDigits_le_iff (by decide) hk
  refine ⟨Nat.le_of_not_lt fun hlt => ?_, (hiff hpos).mp le_rfl⟩
  rcases Nat.eq_zero_or_pos ((digitsOf d).length - 1) with h0 | h0
  · rw [h0] at hlt
    omega
  · have := (hiff h0).mpr hlt
    omega

theorem digitsValue_lt (h : ∀ c ∈ ds, c.isDigit) : digitsValue ds < 10 ^ ds.length := by
  induction ds with
  | nil => decide
  | cons c cs ih =>
    obtain ⟨hc, hcs⟩ := List.forall_mem_cons.mp h
    have hc := isDigit_iff.mp hc
    have hlt := ih hcs
    rw [digitsValue_cons, List.length_cons, Nat.pow_succ']
    nlinarith [show c.toNat - 48 ≤ 9 by omega]

/-- Rows of the same length that stand for the same number are the same. -/
theorem eq_of_digitsValue_eq (ha : ∀ c ∈ as, c.isDigit) (hb : ∀ c ∈ bs, c.isDigit)
    (hlen : as.length = bs.length) (h : digitsValue as = digitsValue bs) : as = bs := by
  induction as generalizing bs with
  | nil => exact (List.length_eq_zero_iff.mp hlen.symm).symm
  | cons a as ih =>
    cases bs with
    | nil => cases hlen
    | cons b bs =>
      obtain ⟨ha, has⟩ := List.forall_mem_cons.mp ha
      obtain ⟨hb, hbs⟩ := List.forall_mem_cons.mp hb
      have hlen : as.length = bs.length := Nat.succ.inj hlen
      have hpos : 0 < 10 ^ bs.length := Nat.pow_pos (by decide)
      have hlta := digitsValue_lt has
      have hltb := digitsValue_lt hbs
      rw [hlen] at hlta
      rw [digitsValue_cons, digitsValue_cons, hlen, Nat.mul_comm, Nat.mul_comm (b.toNat - 48)] at h
      have hhead := congrArg (· / 10 ^ bs.length) h
      have htail := congrArg (· % 10 ^ bs.length) h
      simp only [Nat.mul_add_div hpos, Nat.div_eq_of_lt, hlta, hltb, Nat.mul_add_mod, Nat.mod_eq_of_lt,
        Nat.add_zero] at hhead htail
      have ha := isDigit_iff.mp ha
      have hb := isDigit_iff.mp hb
      have hab : a = b := Char.toNat_inj.mp (by omega)
      rw [hab, ih has hbs hlen htail]

/-- No superfluous zeros stand in front. -/
def Leads (ds : List Char) : Prop := ds = ['0'] ∨ ds.head? ≠ some '0'

instance (ds : List Char) : Decidable (Leads ds) := inferInstanceAs (Decidable (_ ∨ _))

theorem digitsOf_digitsValue (hne : ds ≠ []) (hd : ∀ c ∈ ds, c.isDigit) (h : Leads ds) :
    digitsOf (digitsValue ds) = ds := by
  rcases h with rfl | h
  · rfl
  · refine eq_of_digitsValue_eq (fun c => isDigit_of_mem_digitsOf) hd ?_ (digitsValue_digitsOf _)
    obtain ⟨c, cs, rfl⟩ := List.exists_cons_of_ne_nil hne
    have hlt := digitsValue_lt hd
    have hc := isDigit_iff.mp (hd c List.mem_cons_self)
    have hzero : c.toNat ≠ 48 := fun heq => h (congrArg some (Char.toNat_inj.mp heq))
    have hge : 10 ^ cs.length ≤ digitsValue (c :: cs) := by
      rw [digitsValue_cons]
      exact Nat.le_add_right_of_le (Nat.le_mul_of_pos_left _ (by omega))
    obtain ⟨hlow, hhigh⟩ := digits_bounds ((Nat.pow_pos (by decide)).trans_le hge)
    have hle := (Nat.pow_lt_pow_iff_right (by decide)).mp (hlow.trans_lt hlt)
    have hlt := (Nat.pow_lt_pow_iff_right (by decide)).mp (hge.trans_lt hhigh)
    rw [List.length_cons] at hle ⊢
    omega

theorem leads_digitsOf (n : Nat) : Leads (digitsOf n) := by
  rcases Nat.eq_zero_or_pos n with rfl | hn
  · exact .inl rfl
  · right
    intro hhead
    obtain ⟨cs, hcs⟩ := List.head?_eq_some_iff.mp hhead
    have hlt : digitsValue cs < 10 ^ cs.length :=
      digitsValue_lt fun c hc => isDigit_of_mem_digitsOf (hcs ▸ List.mem_cons_of_mem _ hc)
    have hzero : '0'.toNat - 48 = 0 := rfl
    have hvalue := digitsValue_digitsOf n
    have hge := (digits_bounds hn).1
    rw [hcs, digitsValue_cons, hzero, Nat.zero_mul, Nat.zero_add] at hvalue
    rw [hcs, List.length_cons, Nat.add_sub_cancel, ← hvalue] at hge
    exact hge.not_gt hlt

theorem getLast?_eq_zero_iff (hne : ds ≠ []) (hd : ∀ c ∈ ds, c.isDigit) :
    ds.getLast? = some '0' ↔ digitsValue ds % 10 = 0 := by
  obtain ⟨cs, c, rfl⟩ := (List.eq_nil_or_concat ds).resolve_left hne
  rw [List.concat_eq_append] at hd ⊢
  have hc := isDigit_iff.mp (hd c List.mem_concat_self)
  rw [List.getLast?_concat, digitsValue_append, digitsValue_singleton]
  constructor
  · rintro h
    cases Option.some.inj h
    simp
  · intro h
    have : c.toNat = 48 := by simp at h; omega
    exact congrArg some (Char.toNat_inj.mp this)

end StageFlow.Number
