import StageFlow.Proofs.Context
import StageFlow.Proofs.Expr.Variable
import StageFlow.Proofs.Number.Notation

/-!
# What the command line sets

What stands behind the equals sign of a setting is kept as it is, unless it is a plain decimal, with blanks
around it or not. A plain decimal becomes a number, whose string form is a decimal in normal notation; it
is the one that was given if that is in normal notation itself and has at most fifteen digits, and it
never is if that is not in normal notation (`Assigned`). A template shows the string form of what was set
last (`settings_inserted`).
-/

namespace StageFlow

open Number

variable {raw : List Char} {d : Decimal} {r : Nat}

/-! ## Values -/

/-- The decimal that a text is, apart from blanks around it. -/
def Spells (raw : List Char) (d : Decimal) : Prop := d.Proper ∧ Text.trim raw = d.chars

theorem Spells.ofPlain?_eq (h : Spells raw d) : ofPlain? raw = some d.number :=
  Decimal.ofPlain?_eq_some_iff.mpr ⟨d, h.1, h.2, rfl⟩

theorem Number.Decimal.Proper.spells (h : d.Proper) : Spells d.chars d := ⟨h, h.trim_chars⟩

theorem Spells.unique {d' : Decimal} (h : Spells raw d) (h' : Spells raw d') : d = d' :=
  h.1.chars_injective h'.1 (h.2.symm.trans h'.2)

theorem assignedValue_decimal (h : Spells raw d) : assignedValue raw = .num d.number := by
  have hplain := h.ofPlain?_eq
  have hword {word : String} (hword : ofPlain? word.toList = none) : String.ofList raw ≠ word := by
    rintro rfl
    rw [String.toList_ofList, hplain] at hword
    cases hword
  rw [assignedValue, if_neg (hword (by decide)), if_neg (hword (by decide)), hplain]

theorem text_assignedValue_other (h : ∀ d, ¬Spells raw d) : (assignedValue raw).text.toList = raw := by
  have hplain : ofPlain? raw = none := by
    refine Option.eq_none_iff_forall_ne_some.mpr fun n hn => ?_
    obtain ⟨d, hd, htrim, -⟩ := Decimal.ofPlain?_eq_some_iff.mp hn
    exact h d ⟨hd, htrim⟩
  rw [assignedValue, hplain]
  split
  next htrue => exact (congrArg String.toList htrue).symm.trans String.toList_ofList
  split
  next hfalse => exact (congrArg String.toList hfalse).symm.trans String.toList_ofList
  next => exact String.toList_ofList

/-- What becomes of the text behind an equals sign. -/
structure Assigned (raw : List Char) (v : Value) : Prop where
  /-- All but plain decimals is kept. -/
  other : (∀ d, ¬Spells raw d) → v.text.toList = raw
  /-- A plain decimal becomes the nearest number. -/
  nearest : ∀ d, Spells raw d → ∃ r, RoundsTo d.value r ∧
    (∀ s, |d.value - magnitude r| ≤ |d.value - magnitude s|) ∧ v = .num (ofRank d.negative r)
  /-- The string form of a finite number is in normal notation and reads as the same number. -/
  written : ∀ d r, Spells raw d → RoundsTo d.value r → r < infiniteRank → ∃ d' : Decimal, d'.Proper ∧
    d'.Normal ∧ v.text.toList = d'.chars ∧ d'.negative = (d.negative && r ≠ 0) ∧ RoundsTo d'.value r
  infinite : ∀ d r, Spells raw d → RoundsTo d.value r → infiniteRank ≤ r →
    v.text = if d.negative then "-inf" else "inf"
  /-- A plain decimal is kept if and only if it is the text of some number. -/
  kept_iff : ∀ d, Spells raw d → (v.text.toList = raw ↔ ∃ n : Number, n.text.toList = raw)
  normal : ∀ d, Spells raw d → v.text.toList = raw → raw = d.chars ∧ d.Normal
  moderate : ∀ d : Decimal, d.Proper → d.Normal → IsModerate d.value → raw = d.chars → v.text.toList = raw
  again : (assignedValue v.text.toList).text = v.text

theorem not_spells (h : ofPlain? raw = none) : ¬Spells raw d := fun hd => by
  rw [hd.ofPlain?_eq] at h
  cases h

theorem not_spells_infinity (negative : Bool) : ¬Spells (infinity negative).text.toList d := by
  rw [text_infinity]
  cases negative
  · exact not_spells (by decide)
  · exact not_spells (by decide)

/-- A plain decimal that is the text of a number is in normal notation and reads as a number with the
same text. -/
theorem spells_text {n : Number} (h : Spells n.text.toList d) :
    d.Normal ∧ n.text.toList = d.chars ∧ d.number.text = n.text := by
  cases n with
  | nan => exact absurd h (not_spells (by decide))
  | signed negative r =>
    rcases Nat.lt_or_eq_of_le (Nat.le_of_lt_succ r.isLt) with hr | hr
    · obtain ⟨d', hd', hnormal, hchars, -, -, htext⟩ := text_reads negative hr
      rw [ofRank_eq negative hr] at hchars htext
      obtain rfl := h.unique (hchars ▸ hd'.spells)
      exact ⟨hnormal, hchars, htext⟩
    · have heq : signed negative r = infinity negative := by
        simp only [infinity, ofRank, Nat.min_self, signed.injEq, true_and]
        exact Fin.ext hr
      exact absurd (heq ▸ h) (not_spells_infinity negative)

theorem assigned (raw : List Char) : Assigned raw (assignedValue raw) where
  other := text_assignedValue_other
  nearest d h := by
    obtain ⟨r, hround, hnumber⟩ := d.exists_number
    exact ⟨r, hround, hround.nearest, (assignedValue_decimal h).trans (congrArg Value.num hnumber)⟩
  written d r h hround hr := by
    obtain ⟨d', hd', hnormal, hchars, hnegative, hround', -⟩ := text_reads d.negative hr
    refine ⟨d', hd', hnormal, ?_, hnegative, hround'⟩
    rw [assignedValue_decimal h, ← hchars]
    exact congrArg (·.text.toList) (ofDecimal_eq hround _)
  infinite d r h hround hr := by
    rw [assignedValue_decimal h, ← text_infinity, ← ofRank_eq_infinity _ hr, ← ofDecimal_eq hround]
    rfl
  kept_iff d h := by
    rw [assignedValue_decimal h]
    refine ⟨fun heq => ⟨_, heq⟩, ?_⟩
    rintro ⟨n, rfl⟩
    exact congrArg String.toList (spells_text h).2.2
  normal d h heq := by
    rw [assignedValue_decimal h] at heq
    obtain ⟨hnormal, hchars, -⟩ := spells_text (n := d.number) (heq.symm ▸ h)
    exact ⟨heq.symm.trans hchars, hnormal⟩
  moderate d hd hnormal hvalue hraw := by
    subst hraw
    rw [assignedValue_decimal hd.spells]
    exact hnormal.text_number hd hvalue
  again := by
    by_cases hplain : ∃ d, Spells raw d
    · obtain ⟨d, h⟩ := hplain
      rw [assignedValue_decimal h]
      by_cases htext : ∃ d', Spells d.number.text.toList d'
      · obtain ⟨d', h'⟩ := htext
        rw [Value.text, assignedValue_decimal h']
        exact (spells_text h').2.2
      · exact String.toList_inj.mp (text_assignedValue_other (not_exists.mp htext))
    · have heq := text_assignedValue_other (not_exists.mp hplain)
      rw [heq]

/-! ## Settings -/

variable {text key : String} {v : Value}

theorem parseAssignment_eq_ok_iff : parseAssignment text = .ok (key, v) ↔
    ∃ front raw, text.toList = front ++ '=' :: raw ∧ '=' ∉ front ∧ Text.trim front ≠ [] ∧
      key = String.ofList (Text.trim front) ∧ v = assignedValue raw := by
  rw [parseAssignment]
  constructor
  · intro h
    split at h
    next => cases h
    next front raw hcut =>
      dsimp only at h
      split at h
      next => cases h
      next hne =>
        cases h
        refine ⟨front, raw, Text.cutAt?_eq_some hcut, fun hmem => ?_, List.isEmpty_iff.not.mp hne, rfl, rfl⟩
        -- the text is cut at the first sign
        obtain ⟨as, bs, rfl, has⟩ := List.eq_append_cons_of_mem hmem
        rw [Text.cutAt?_eq_some hcut, List.append_assoc, List.cons_append,
          Text.cutAt?_append_cons has] at hcut
        have hlen := congrArg List.length (Prod.mk.inj (Option.some.inj hcut)).1
        rw [List.length_append, List.length_cons] at hlen
        omega
  · rintro ⟨front, raw, htext, hfront, hne, rfl, rfl⟩
    rw [htext, Text.cutAt?_append_cons hfront]
    exact if_neg (List.isEmpty_iff.not.mpr hne)

/-- No later setting is one of the same name. -/
def Invocation.SetsLast (i : Invocation) (text key : String) : Prop :=
  ∃ earlier later, i.set = earlier ++ text :: later ∧ ∀ t ∈ later, ∀ w, parseAssignment t ≠ .ok (key, w)

theorem lastOf_assignments {i : Invocation} (h : parseAssignment text = .ok (key, v))
    (hlast : i.SetsLast text key) : lastOf key (assignments i.set) = some v := by
  obtain ⟨earlier, later, hset, hlater⟩ := hlast
  have hnone : lastOf key (assignments later) = none := by
    refine Option.not_isSome_iff_eq_none.mp fun hsome => ?_
    obtain ⟨⟨k, w⟩, he, rfl⟩ := isSome_lastOf_iff.mp hsome
    obtain ⟨t, ht, hparse⟩ := List.mem_filterMap.mp he
    cases hparsed : parseAssignment t with
    | error =>
      rw [hparsed] at hparse
      cases hparse
    | ok a =>
      rw [hparsed] at hparse
      cases hparse
      exact hlater t ht w hparsed
  have hsplit : assignments i.set = assignments earlier ++ (key, v) :: assignments later := by
    rw [hset, assignments, List.filterMap_append, List.filterMap_cons, h]
    rfl
  rw [hsplit, lastOf_append, lastOf_cons, hnone, if_pos rfl]
  rfl

/-- What the command line sets is what templates show: as it was given if it is no plain decimal, and
otherwise the text of the nearest number. -/
theorem settings_inserted [Platform] (h : parseAssignment text = .ok (key, v)) :
    ∃ front raw, text.toList = front ++ '=' :: raw ∧ '=' ∉ front ∧ key = String.ofList (Text.trim front) ∧
      Assigned raw v ∧
      ∀ (i : Invocation) (c : Config) (env : List RawEntry) (ctx : Context), i.context c env = .ok ctx →
        i.SetsLast text key → IsVariable key → ∀ (ev : Evaluator) (before after : List Char),
          (∀ x ∈ before, Text.isAsciiBlank x) → (∀ x ∈ after, Text.isAsciiBlank x) →
          Template.interpolate ev ctx (String.ofList
            (Template.opening ++ (before ++ key.toList ++ after) ++ Template.closing)) = .ok v.text := by
  obtain ⟨front, raw, htext, hfront, -, hkey, rfl⟩ := parseAssignment_eq_ok_iff.mp h
  refine ⟨front, raw, htext, hfront, hkey, assigned raw, fun i c env ctx hctx hlast hname ev before after
    hbefore hafter => ?_⟩
  have hget := (Invocation.sets_of_context hctx).set key _ (lastOf_assignments h hlast)
  exact Template.interpolate_variable ev hname hbefore hafter hget

/-- An invocation that sets a name twice, and another one to a decimal that is not in normal notation. -/
def scaleInvocation : Invocation where
  set := ["scale=2", "scale=-1.25", "release=1.10"]

theorem parseAssignment_scale : parseAssignment "scale=-1.25" = .ok ("scale", assignedValue "-1.25".toList) :=
  parseAssignment_eq_ok_iff.mpr ⟨"scale".toList, _, by decide, by decide, by decide, by decide, rfl⟩

theorem parseAssignment_release :
    parseAssignment "release=1.10" = .ok ("release", assignedValue "1.10".toList) :=
  parseAssignment_eq_ok_iff.mpr ⟨"release".toList, _, by decide, by decide, by decide, by decide, rfl⟩

theorem exists_scale_context [Platform] : ∃ ctx, scaleInvocation.context deployConfig [] = .ok ctx := by
  refine ⟨_, Invocation.context_eq_ok_iff.mpr ⟨⟨nofun, ?_⟩, rfl⟩⟩
  have hfirst : parseAssignment "scale=2" = .ok ("scale", assignedValue ['2']) :=
    parseAssignment_eq_ok_iff.mpr ⟨"scale".toList, _, by decide, by decide, by decide, by decide, rfl⟩
  simp [scaleInvocation, hfirst, parseAssignment_scale, parseAssignment_release]

theorem isModerate_scale : IsModerate (scaled 125 (-2)) := by
  have hpos : (0 : ℚ) < tenTo (- -2 : Int).toNat := Nat.cast_pos.mpr (tenTo_pos _)
  refine .inr ⟨⟨125, by decide, -2, rfl⟩, ?_, ?_⟩
  · rw [scaled_ratio, le_div_iff₀ hpos, ← Nat.cast_mul, Nat.cast_le]
    decide +kernel
  · rw [scaled_ratio, div_le_iff₀ hpos, ← Nat.cast_mul, Nat.cast_le]
    decide +kernel

section
attribute [local instance] Platform.linux

theorem scale_inserted : ∃ v ctx, parseAssignment "scale=-1.25" = .ok ("scale", v) ∧
    scaleInvocation.context deployConfig [] = .ok ctx ∧
    Template.interpolate .plain ctx "\x7b\x7b scale \x7d\x7d" = .ok "-1.25" := by
  obtain ⟨ctx, hctx⟩ := exists_scale_context
  have htemplate : "\x7b\x7b scale \x7d\x7d" = String.ofList
      (Template.opening ++ ([' '] ++ "scale".toList ++ [' ']) ++ Template.closing) := by decide
  obtain ⟨front, raw, htext, hfront, -, hassigned, hinsert⟩ := settings_inserted parseAssignment_scale
  refine ⟨_, ctx, parseAssignment_scale, hctx, ?_⟩
  have hraw : raw = "-1.25".toList := by
    have hcut := Text.cutAt?_append_cons hfront raw
    rw [← htext, show Text.cutAt? '=' "scale=-1.25".toList = some ("scale".toList, "-1.25".toList) by decide,
      Option.some.injEq, Prod.mk.injEq] at hcut
    exact hcut.2.symm
  have hkept := hassigned.moderate ⟨some '-', ['1'], ['2', '5']⟩
    ⟨fun c hc => .inl (Option.some.inj hc).symm, by decide, by decide⟩
    ⟨by decide, by decide, by decide, by decide⟩ isModerate_scale hraw
  have hlast : scaleInvocation.SetsLast "scale=-1.25" "scale" := by
    refine ⟨["scale=2"], ["release=1.10"], rfl, List.forall_mem_singleton.mpr fun w h => ?_⟩
    rw [parseAssignment_release] at h
    exact absurd (Prod.mk.inj (Except.ok.inj h)).1 (by decide)
  have hinserted := hinsert scaleInvocation deployConfig [] ctx hctx hlast
    ⟨⟨'s', "cale".toList, by decide, by decide, by decide⟩, by decide⟩ .plain [' '] [' '] (by decide) (by decide)
  rw [String.toList_inj.mp (hkept.trans hraw)] at hinserted
  rw [htemplate]
  exact hinserted

/-- A zero at the end is lost. -/
theorem release_not_kept : ∃ v ctx, parseAssignment "release=1.10" = .ok ("release", v) ∧ v.text ≠ "1.10" ∧
    scaleInvocation.context deployConfig [] = .ok ctx ∧
    Template.interpolate .plain ctx "\x7b\x7b release \x7d\x7d" = .ok v.text := by
  obtain ⟨ctx, hctx⟩ := exists_scale_context
  have hspells : Spells "1.10".toList ⟨none, ['1'], ['1', '0']⟩ := ⟨⟨nofun, by decide, by decide⟩, by decide⟩
  have htemplate : "\x7b\x7b release \x7d\x7d" = String.ofList
      (Template.opening ++ ([' '] ++ "release".toList ++ [' ']) ++ Template.closing) := by decide
  refine ⟨_, ctx, parseAssignment_release, fun htext => ?_, hctx, ?_⟩
  · exact ((assigned _).normal _ hspells (congrArg String.toList htext)).2.fraction rfl
  · have hlast : scaleInvocation.SetsLast "release=1.10" "release" :=
      ⟨["scale=2", "scale=-1.25"], [], rfl, nofun⟩
    have hget := (Invocation.sets_of_context hctx).set _ _ (lastOf_assignments parseAssignment_release hlast)
    rw [htemplate]
    exact Template.interpolate_variable .plain ⟨⟨'r', "elease".toList, by decide, by decide, by decide⟩, by decide⟩
      (by decide) (by decide) hget

end

end StageFlow
