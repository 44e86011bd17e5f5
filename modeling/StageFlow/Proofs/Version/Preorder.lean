import StageFlow.Expr.Eval
import StageFlow.Proofs.Failure

/-!
# The order of versions

Versions are ordered by their three numbers, then by whether they have pre-release identifiers, then by
these. Each of the comparisons is oriented and transitive and tells different things apart, and so does
what is made of them one after the other. `Version.compareTexts_preorder` says what that means for
texts: the readable ones are totally preordered, two of them are level just if they are read as the same
version, and nothing else can be compared.
-/

namespace StageFlow

open Std

/-! ## Texts and identifiers -/

instance Text.transCmp_toNat : TransCmp fun c d : Char => compare c.toNat d.toNat :=
  inferInstanceAs (TransCmp (compareOn Char.toNat))

instance Text.lawfulEqCmp_toNat : LawfulEqCmp fun c d : Char => compare c.toNat d.toNat where
  compare_self := ReflOrd.compare_self
  eq_of_compare h := Char.toNat_inj.mp (LawfulEqOrd.eq_of_compare h)

instance : TransCmp Text.compareText := inferInstanceAs (TransCmp (List.compareLex _))

instance : LawfulEqCmp Text.compareText := inferInstanceAs (LawfulEqCmp (List.compareLex _))

namespace Identifier

instance : OrientedCmp compare where
  eq_swap {a b} := by
    cases a <;> cases b
    case numeric.numeric => exact OrientedOrd.eq_swap
    case alpha.alpha a b =>
      have hswap : Text.compareText a.toList b.toList = (Text.compareText b.toList a.toList).swap :=
        OrientedCmp.eq_swap
      exact hswap
    all_goals rfl

instance : TransCmp compare where
  isLE_trans {a b c} hab hbc := by
    cases a <;> cases b <;> cases c
    case numeric.numeric.numeric => exact TransOrd.isLE_trans hab hbc
    case alpha.alpha.alpha a b c =>
      have htrans : (Text.compareText a.toList b.toList).isLE →
          (Text.compareText b.toList c.toList).isLE → (Text.compareText a.toList c.toList).isLE :=
        TransCmp.isLE_trans
      exact htrans hab hbc
    -- a text in front of a number is what neither ordering allows
    case numeric.alpha.numeric => exact absurd hbc Bool.false_ne_true
    case alpha.numeric.alpha => exact absurd hab Bool.false_ne_true
    all_goals first | rfl | exact hab | exact hbc

instance : LawfulEqCmp compare where
  compare_self {a} := by
    cases a
    case numeric => exact ReflOrd.compare_self
    case alpha a =>
      have hself : Text.compareText a.toList a.toList = .eq := ReflCmp.compare_self
      exact hself
  eq_of_compare {a b} h := by
    cases a <;> cases b
    case numeric.numeric => rw [LawfulEqOrd.eq_of_compare h]
    case alpha.alpha a b =>
      have heq : Text.compareText a.toList b.toList = .eq := h
      rw [String.toList_injective (LawfulEqCmp.eq_of_compare heq)]
    all_goals cases h

end Identifier

namespace Version

/-! ## Versions -/

/-- Whether there are identifiers counts before these do. -/
theorem comparePre_eq : comparePre =
    compareLex (compareOn List.isEmpty) (List.compareLex Identifier.compare) := by
  funext a b
  cases a <;> cases b <;> rfl

instance : TransCmp comparePre := comparePre_eq ▸ inferInstance

instance : LawfulEqCmp comparePre where
  compare_self {a} := by
    rw [comparePre_eq]
    exact ReflCmp.compare_self
  eq_of_compare h := by
    rw [comparePre_eq, compareLex_eq_eq] at h
    exact LawfulEqCmp.eq_of_compare h.2

instance : TransCmp fun a b : Version => comparePre a.pre b.pre where
  eq_swap {a b} := by
    have hswap : comparePre a.pre b.pre = (comparePre b.pre a.pre).swap := OrientedCmp.eq_swap
    exact hswap
  isLE_trans {a b c} hab hbc := by
    have htrans : (comparePre a.pre b.pre).isLE → (comparePre b.pre c.pre).isLE →
        (comparePre a.pre c.pre).isLE := TransCmp.isLE_trans
    exact htrans hab hbc

instance : TransCmp compare :=
  inferInstanceAs (TransCmp (compareLex (compareOn major) (compareLex (compareOn minor)
    (compareLex (compareOn patch) fun a b => comparePre a.pre b.pre))))

instance : LawfulEqCmp compare where
  compare_self {a} := by simp only [compare, ReflCmp.compare_self, Ordering.then_self]
  eq_of_compare {a b} h := by
    simp only [compare, Ordering.then_eq_eq, LawfulEqCmp.compare_eq_iff_eq] at h
    obtain ⟨hmajor, hminor, hpatch, hpre⟩ := h
    cases a
    cases b
    subst hmajor hminor hpatch hpre
    rfl

/-! ## Texts -/

theorem compareTexts_eq_ok_iff {a b : String} {o : Ordering} :
    compareTexts a b = .ok o ↔ ∃ v, parse a = .ok v ∧ ∃ w, parse b = .ok w ∧ compare v w = o := by
  simp only [compareTexts, bind_eq_ok]
  exact ⟨fun ⟨v, hv, w, hw, h⟩ => ⟨v, hv, w, hw, Except.ok.inj h⟩,
    fun ⟨v, hv, w, hw, h⟩ => ⟨v, hv, w, hw, congrArg Except.ok h⟩⟩

theorem compareTexts_eq_error_iff {a b : String} {e : VersionError} :
    compareTexts a b = .error e ↔
      parse a = .error e ∨ (∃ v, parse a = .ok v) ∧ parse b = .error e := by
  simp only [compareTexts, bind_eq_error]
  constructor
  · rintro (ha | ⟨v, hv, hb | ⟨w, hw, h⟩⟩)
    · exact .inl ha
    · exact .inr ⟨⟨v, hv⟩, hb⟩
    · cases h
  · rintro (ha | ⟨⟨v, hv⟩, hb⟩)
    · exact .inl ha
    · exact .inr ⟨v, hv, .inl hb⟩

theorem compareTexts_swap {a b : String} {o : Ordering} (h : compareTexts a b = .ok o) :
    compareTexts b a = .ok o.swap := by
  obtain ⟨v, hv, w, hw, rfl⟩ := compareTexts_eq_ok_iff.mp h
  exact compareTexts_eq_ok_iff.mpr ⟨w, hw, v, hv, OrientedCmp.eq_swap⟩

theorem compareTexts_trans {a b c : String} {o p : Ordering} (hab : compareTexts a b = .ok o)
    (ho : o ≠ .gt) (hbc : compareTexts b c = .ok p) (hp : p ≠ .gt) :
    ∃ q, compareTexts a c = .ok q ∧ q ≠ .gt ∧ (o = .lt ∨ p = .lt → q = .lt) := by
  obtain ⟨u, hu, v, hv, rfl⟩ := compareTexts_eq_ok_iff.mp hab
  obtain ⟨v', hv', w, hw, rfl⟩ := compareTexts_eq_ok_iff.mp hbc
  obtain rfl : v = v' := Except.ok.inj (hv.symm.trans hv')
  have hole := Ordering.ne_gt_iff_isLE.mp ho
  have hple := Ordering.ne_gt_iff_isLE.mp hp
  refine ⟨_, compareTexts_eq_ok_iff.mpr ⟨u, hu, w, hw, rfl⟩, ?_, ?_⟩
  · exact Ordering.ne_gt_iff_isLE.mpr (TransCmp.isLE_trans hole hple)
  · rintro (hlt | hlt)
    · exact TransCmp.lt_of_lt_of_isLE hlt hple
    · exact TransCmp.lt_of_isLE_of_lt hole hlt

theorem compareTexts_eq_ok_eq_iff {a b : String} {v w : Version} (hv : parse a = .ok v)
    (hw : parse b = .ok w) : compareTexts a b = .ok .eq ↔ v = w := by
  rw [compareTexts_eq_ok_iff]
  constructor
  · rintro ⟨v', hv', w', hw', h⟩
    cases hv.symm.trans hv'
    cases hw.symm.trans hw'
    exact LawfulEqCmp.eq_of_compare h
  · rintro rfl
    exact ⟨v, hv, v, hw, ReflCmp.compare_self⟩

theorem call_semverCompare (ev : Evaluator) (x y : Value) :
    ev.call "semverCompare" [x, y] = match compareTexts x.text y.text with
      | .ok o => .ok (.num (Evaluator.orderingNumber o))
      | .error e => .error (.invalidArgument "semverCompare" e.message) := by
  simp only [Evaluator.call, Evaluator.two, bind, Except.bind]
  cases compareTexts x.text y.text <;> rfl

/-- How texts are compared that are read as versions or not at all. -/
structure Preordered (a b c : String) : Prop where
  /-- What cannot be read is not compared, and the first such text is reported. -/
  error_iff : ∀ e, compareTexts a b = .error e ↔
    parse a = .error e ∨ (∃ v, parse a = .ok v) ∧ parse b = .error e
  refl : ∀ v, parse a = .ok v → compareTexts a a = .ok .eq
  swap : ∀ o, compareTexts a b = .ok o → compareTexts b a = .ok o.swap
  trans : ∀ o p, compareTexts a b = .ok o → o ≠ .gt → compareTexts b c = .ok p → p ≠ .gt →
    ∃ q, compareTexts a c = .ok q ∧ q ≠ .gt ∧ (o = .lt ∨ p = .lt → q = .lt)
  eq_iff : ∀ v w, parse a = .ok v → parse b = .ok w →
    (compareTexts a b = .ok .eq ↔
      (v.major = w.major ∧ v.minor = w.minor ∧ v.patch = w.patch) ∧ v.pre = w.pre)
  /-- Expressions see the same. -/
  call : ∀ (ev : Evaluator) (x y : Value), x.text = a → y.text = b →
    ev.call "semverCompare" [x, y] = match compareTexts a b with
      | .ok o => .ok (.num (Evaluator.orderingNumber o))
      | .error e => .error (.invalidArgument "semverCompare" e.message)

/-- The texts that can be read are totally preordered by what they are read as. -/
theorem compareTexts_preorder (a b c : String) : Preordered a b c where
  error_iff _ := compareTexts_eq_error_iff
  refl v hv := compareTexts_eq_ok_iff.mpr ⟨v, hv, v, hv, ReflCmp.compare_self⟩
  swap _ h := compareTexts_swap h
  trans _ _ hab ho hbc hp := compareTexts_trans hab ho hbc hp
  eq_iff v w hv hw := by
    rw [compareTexts_eq_ok_eq_iff hv hw]
    cases v
    cases w
    simp only [mk.injEq, and_assoc]
  call ev x y hx hy := by
    subst hx hy
    exact call_semverCompare ev x y

/-- A candidate comes before its release, however the release is written. -/
theorem compareTexts_release : compareTexts "1.4-rc.9" "v1.4.0+build.7" = .ok .lt ∧
    compareTexts "v1.4.0+build.7" "1.4" = .ok .eq ∧ compareTexts "1.4-rc.9" "1.4" = .ok .lt := by
  have hlt : compareTexts "1.4-rc.9" "v1.4.0+build.7" = .ok .lt := by decide
  have heq : compareTexts "v1.4.0+build.7" "1.4" = .ok .eq := by decide
  obtain ⟨o, ho, -, hstrict⟩ := (compareTexts_preorder "1.4-rc.9" "v1.4.0+build.7" "1.4").trans
    .lt .eq hlt nofun heq nofun
  exact ⟨hlt, heq, ho.trans (congrArg _ (hstrict (.inl rfl)))⟩

end Version
end StageFlow
