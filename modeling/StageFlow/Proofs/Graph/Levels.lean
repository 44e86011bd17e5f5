import StageFlow.Proofs.Graph.Cycles
import StageFlow.Proofs.Graph.Requirements

/-!
# Levels

A levelling puts each place one above the highest of its successors. Then levels decrease along every
walk, and below a place there is one of every lower level, so that they stay below the number of places
(`IsLevelling.lt_size`).
-/

namespace StageFlow

/-- Each place is one above the highest of its successors. -/
def IsLevelling {n : Nat} (next : Fin n → List (Fin n)) (level : Fin n → Nat) : Prop :=
  ∀ i, level i = chainAbove ((next i).map level)

namespace IsLevelling

variable {n : Nat} {next : Fin n → List (Fin n)} {level : Fin n → Nat} {i d : Fin n}

theorem lt (h : IsLevelling next level) (hd : d ∈ next i) : level d < level i := by
  rw [h i]
  exact lt_chainAbove (List.mem_map_of_mem hd)

theorem lt_of_transGen (h : IsLevelling next level) (hd : Relation.TransGen (Cycle.Edge next) i d) :
    level d < level i := by
  induction hd with
  | single hd => exact h.lt hd
  | tail _ hd ih => exact Nat.lt_trans (h.lt hd) ih

/-- Below a place there is a place of every lower level. -/
theorem exists_level_eq (h : IsLevelling next level) (i : Fin n) {k : Nat} (hk : k ≤ level i) :
    ∃ j, level j = k := by
  induction hl : level i using Nat.strong_induction_on generalizing i with
  | h l ih =>
    subst hl
    rcases Nat.eq_or_lt_of_le hk with rfl | hk
    · exact ⟨i, rfl⟩
    · rw [h i, lt_chainAbove_iff] at hk
      obtain ⟨l, hl, hk⟩ := hk
      obtain ⟨d, hd, rfl⟩ := List.mem_map.mp hl
      exact ih (level d) (h.lt hd) d hk rfl

/-- Levels stay below the number of places. -/
theorem lt_size (h : IsLevelling next level) (i : Fin n) : level i < n := by
  have hsubset : Finset.range (level i + 1) ⊆ Finset.univ.image level := by
    intro k hk
    obtain ⟨j, hj⟩ := h.exists_level_eq i (Nat.lt_succ_iff.mp (Finset.mem_range.mp hk))
    exact Finset.mem_image.mpr ⟨j, Finset.mem_univ j, hj⟩
  calc level i < (Finset.range (level i + 1)).card := by rw [Finset.card_range]; exact Nat.lt_succ_self _
    _ ≤ (Finset.univ.image level).card := Finset.card_le_card hsubset
    _ ≤ n := by simpa using Finset.card_image_le (s := Finset.univ) (f := level)

end IsLevelling

end StageFlow
