import Mathlib
import StageFlow.Graph.Basic

/-!
# Requirements

The relation between a step and the steps that it names as requirements, and its transitive closure.
Levels decrease along it (`StageGraph.Requires.level_lt`), so statements about steps can be proved by
induction along requirements (`StageGraph.requires_induction`).
-/

namespace StageFlow

theorem lt_foldl_chain_iff (ls : List Nat) (m k : Nat) :
    k < ls.foldl (fun m l => max m (l + 1)) m ↔ k < m ∨ ∃ l ∈ ls, k ≤ l := by
  induction ls generalizing m with
  | nil => simp
  | cons l ls ih =>
    rw [List.foldl_cons, ih, lt_max_iff, Nat.lt_succ_iff, or_assoc]
    simp

/-- A chain is longer than `k` if it goes on from one of at least that length. -/
theorem lt_chainAbove_iff {ls : List Nat} {k : Nat} : k < chainAbove ls ↔ ∃ l ∈ ls, k ≤ l := by
  rw [chainAbove, lt_foldl_chain_iff]
  simp

theorem lt_chainAbove {ls : List Nat} {l : Nat} (h : l ∈ ls) : l < chainAbove ls :=
  lt_chainAbove_iff.mpr ⟨l, h, Nat.le_refl l⟩

namespace Stage

variable {s : Stage} {i d : Fin s.size} {name : String}

theorem names_eq (s : Stage) : s.names = (List.finRange s.size).map fun i => (s.step i).name := by
  apply List.ext_getElem
  · simp [names]
  · intro k h₁ h₂
    simp [names, step]

/-- A name that nothing is found for is the name of no step. -/
theorem indexOf?_eq_none_iff : s.indexOf? name = none ↔ name ∉ s.names := by
  simp only [indexOf?, List.findFinIdx?_eq_none_iff, decide_eq_true_eq, names, List.mem_map,
    not_exists, not_and]

/-- A step names another step as a requirement. -/
def Requires (s : Stage) (i d : Fin s.size) : Prop := (s.step d).name ∈ (s.step i).requires

/-- A step of one name requires another name. -/
def RequiresName (s : Stage) (a b : String) : Prop := ∃ t ∈ s.steps, t.name = a ∧ b ∈ t.requires

section
variable (hnodup : s.names.Nodup)
include hnodup

theorem name_injective : Function.Injective fun i => (s.step i).name := by
  intro i j h
  rw [names_eq] at hnodup
  exact List.inj_on_of_nodup_map hnodup (List.mem_finRange i) (List.mem_finRange j) h

/-- The place found for a name is the one that bears it. -/
theorem indexOf?_eq_some_iff : s.indexOf? name = some i ↔ (s.step i).name = name := by
  simp only [indexOf?, List.findFinIdx?_eq_some_iff, decide_eq_true_eq]
  refine ⟨fun h => h.1, fun h => ⟨h, fun j hj hn => ?_⟩⟩
  exact absurd (name_injective hnodup (hn.trans h.symm)) (Fin.ne_of_lt hj)

theorem mem_requirements : d ∈ s.requirements i ↔ s.Requires i d := by
  rw [requirements, List.mem_eraseDups, List.mem_filterMap]
  constructor
  · rintro ⟨name, hname, hd⟩
    obtain rfl := (indexOf?_eq_some_iff hnodup).mp hd
    exact hname
  · intro h
    exact ⟨(s.step d).name, h, (indexOf?_eq_some_iff hnodup).mpr rfl⟩

end

end Stage

namespace StageGraph

variable {g : StageGraph} {i j d : Fin g.size} {name : String}

/-! ## Names -/

theorem names_eq (g : StageGraph) : g.stage.names = (List.finRange g.size).map g.name :=
  g.stage.names_eq

theorem name_injective (g : StageGraph) : Function.Injective g.name :=
  Stage.name_injective g.names_nodup

/-- The place found for a name is the one that bears it. -/
theorem indexOf?_eq_some_iff : g.indexOf? name = some i ↔ g.name i = name :=
  Stage.indexOf?_eq_some_iff g.names_nodup

@[simp] theorem indexOf?_name (g : StageGraph) (i : Fin g.size) : g.indexOf? (g.name i) = some i :=
  indexOf?_eq_some_iff.mpr rfl

/-! ## The relation -/

/-- A step names another step as a requirement. -/
def Requires (g : StageGraph) (i d : Fin g.size) : Prop := g.name d ∈ (g.step i).requires

/-- A step requires another step, directly or through others. -/
def DependsOn (g : StageGraph) : Fin g.size → Fin g.size → Prop := Relation.TransGen g.Requires

theorem mem_deps : d ∈ g.deps.get i ↔ g.Requires i d := by
  rw [g.deps_eq]
  exact Stage.mem_requirements g.names_nodup

theorem Requires.level_lt (h : g.Requires i d) : g.levels.get d < g.levels.get i := by
  rw [g.levels_eq i]
  exact lt_chainAbove (List.mem_map_of_mem (mem_deps.mpr h))

/-- Induction along requirements. -/
theorem requires_induction {P : Fin g.size → Prop}
    (step : ∀ i, (∀ d, g.Requires i d → P d) → P i) (i : Fin g.size) : P i :=
  (measure g.levels.get).wf.induction (C := P) i fun i ih => step i fun d h => ih d h.level_lt

end StageGraph
end StageFlow
