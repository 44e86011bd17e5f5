import StageFlow.Proofs.Graph.Validity

/-!
# What a stage graph holds

A stage graph answers for its stage (`StageGraph.build_represents`): steps are found by name, the steps
that a step requires are listed once each in the order of first mention, those that require it in the order
of declaration, and levels are the lengths of the longest chains of requirements.

Lists of both kinds can be filled in one pass over what is mentioned (`Tables.fill`), and levels be found in
one pass over any order in which requirements come first (`StageGraph.levelsAlong`).
-/

namespace StageFlow

/-- A repetition is left out, and anything new comes last. -/
theorem eraseDups_concat {α : Type} [DecidableEq α] (as : List α) (a : α) :
    (as ++ [a]).eraseDups = if a ∈ as then as.eraseDups else as.eraseDups ++ [a] := by
  rw [List.eraseDups_append, List.removeAll]
  by_cases h : a ∈ as
  · simp [h]
  · simp [h, List.eraseDups_cons]

/-! ## Lists filled in one pass -/

/-- For each place the places that it is followed by, and those that it follows. -/
structure Tables (n : Nat) where
  deps : Row (List (Fin n)) n
  dependents : Row (List (Fin n)) n

namespace Tables

variable {n : Nat} {mentions : Fin n → List (Fin n)} {is : List (Fin n)} {i : Fin n} {t : Tables n}

/-- Records a requirement in both tables, unless it has been recorded before. -/
def record (t : Tables n) (i d : Fin n) : Tables n :=
  if (t.deps.get i).contains d then t
  else { deps := t.deps.put i (t.deps.get i ++ [d]),
         dependents := t.dependents.put d (t.dependents.get d ++ [i]) }

/-- Records all that the places mention, place by place. -/
def fill (mentions : Fin n → List (Fin n)) : Tables n :=
  (List.finRange n).foldl (fun t i => (mentions i).foldl (fun t d => t.record i d) t)
    { deps := Vector.replicate n [], dependents := Vector.replicate n [] }

/-- The tables hold what some places mention. -/
structure Holds (mentions : Fin n → List (Fin n)) (is : List (Fin n)) (t : Tables n) : Prop where
  deps : ∀ j, t.deps.get j = if j ∈ is then (mentions j).eraseDups else []
  dependents : ∀ d, t.dependents.get d = is.filter (d ∈ mentions ·)

/-- What one place mentions goes into its own list, and the place into the lists of what it mentions. -/
theorem record_foldl (h : t.deps.get i = []) (ds : List (Fin n)) :
    (∀ j, (ds.foldl (fun t d => t.record i d) t).deps.get j =
      if i = j then ds.eraseDups else t.deps.get j) ∧
    ∀ d, (ds.foldl (fun t d => t.record i d) t).dependents.get d =
      t.dependents.get d ++ if d ∈ ds then [i] else [] := by
  induction ds using List.reverseRecOn with
  | nil =>
    refine ⟨fun j => ?_, fun d => by simp⟩
    split
    next hj => rw [← hj]; exact h
    next => rfl
  | append_singleton ds e ih =>
    obtain ⟨hdeps, hdependents⟩ := ih
    rw [List.foldl_concat, record, eraseDups_concat]
    -- what has been recorded of `i` is what has come so far, each place once
    have hi : (ds.foldl (fun t d => t.record i d) t).deps.get i = ds.eraseDups := by
      rw [hdeps, if_pos rfl]
    by_cases he : e ∈ ds
    · rw [if_pos (by rwa [hi, List.contains_iff_mem, List.mem_eraseDups]), if_pos he]
      refine ⟨hdeps, fun d => ?_⟩
      rw [hdependents]
      by_cases hd : d = e
      · simp [hd, he]
      · simp [hd]
    · rw [if_neg (by rwa [hi, List.contains_iff_mem, List.mem_eraseDups]), if_neg he]
      refine ⟨fun j => ?_, fun d => ?_⟩
      · rw [Row.get_put, hi, hdeps]
        split
        next => rfl
        next => rfl
      · rw [Row.get_put, hdependents, hdependents]
        by_cases hd : e = d
        · subst hd
          simp [he]
        · simp [hd, Ne.symm hd]

theorem Holds.concat (h : t.Holds mentions is) (hi : i ∉ is) :
    ((mentions i).foldl (fun t d => t.record i d) t).Holds mentions (is ++ [i]) := by
  have hempty : t.deps.get i = [] := by rw [h.deps, if_neg hi]
  obtain ⟨hdeps, hdependents⟩ := record_foldl hempty (mentions i)
  refine ⟨fun j => ?_, fun d => ?_⟩
  · rw [hdeps, h.deps]
    by_cases hj : i = j
    · subst hj
      simp
    · simp [hj, Ne.symm hj]
  · rw [hdependents, h.dependents, List.filter_append]
    by_cases hd : d ∈ mentions i
    · simp [hd]
    · simp [hd]

theorem fill_holds (mentions : Fin n → List (Fin n)) :
    (fill mentions).Holds mentions (List.finRange n) := by
  have hfold : ∀ is : List (Fin n), is.Nodup → Holds mentions is
      (is.foldl (fun t i => (mentions i).foldl (fun t d => t.record i d) t)
        { deps := Vector.replicate n [], dependents := Vector.replicate n [] }) := by
    intro is
    induction is using List.reverseRecOn with
    | nil => exact fun _ => ⟨fun j => by simp [Vector.get], fun d => by simp [Vector.get]⟩
    | append_singleton is i ih =>
      intro hnodup
      obtain ⟨his, -, hfresh⟩ := List.nodup_append.mp hnodup
      rw [List.foldl_concat]
      exact (ih his).concat fun hi => hfresh i hi i (List.mem_singleton_self i) rfl
  exact hfold (List.finRange n) (List.nodup_finRange n)

end Tables

/-! ## Requirements in order -/

namespace Stage

variable {s : Stage} {d : Fin s.size} {rs : List String}

theorem name_mem_of_indexOf?_mem (hnodup : s.names.Nodup) (h : d ∈ rs.filterMap s.indexOf?) :
    (s.step d).name ∈ rs := by
  obtain ⟨r, hr, hd⟩ := List.mem_filterMap.mp h
  rwa [(indexOf?_eq_some_iff hnodup).mp hd]

/-- Steps are listed in the order in which their names are first mentioned. -/
theorem pairwise_first_mention (hnodup : s.names.Nodup) (rs : List String) :
    (rs.filterMap s.indexOf?).eraseDups.Pairwise fun d e =>
      rs.idxOf (s.step d).name < rs.idxOf (s.step e).name := by
  induction rs using List.reverseRecOn with
  | nil => exact .nil
  | append_singleton rs r ih =>
    have hold : (rs.filterMap s.indexOf?).eraseDups.Pairwise fun d e =>
        (rs ++ [r]).idxOf (s.step d).name < (rs ++ [r]).idxOf (s.step e).name := by
      refine ih.imp_of_mem fun hd he hlt => ?_
      rw [List.mem_eraseDups] at hd he
      rwa [List.idxOf_append_of_mem (name_mem_of_indexOf?_mem hnodup hd),
        List.idxOf_append_of_mem (name_mem_of_indexOf?_mem hnodup he)]
    rw [List.filterMap_append]
    cases hr : s.indexOf? r with
    | none => simpa [hr] using hold
    | some e =>
      have hname := (indexOf?_eq_some_iff hnodup).mp hr
      have hsingle : [r].filterMap s.indexOf? = [e] := by simp [hr]
      rw [hsingle, eraseDups_concat]
      split
      next => exact hold
      next hfresh =>
        refine List.pairwise_append.mpr ⟨hold, List.pairwise_singleton _ e, fun d hd e' he' => ?_⟩
        obtain rfl := List.mem_singleton.mp he'
        have hd' := name_mem_of_indexOf?_mem hnodup (List.mem_eraseDups.mp hd)
        have hr' : r ∉ rs := fun h => hfresh (List.mem_filterMap.mpr ⟨r, h, hr⟩)
        -- what is new is mentioned after everything that has been mentioned before
        rw [hname, List.idxOf_append_of_mem hd', List.idxOf_append_of_notMem hr']
        exact Nat.lt_add_right _ (List.idxOf_lt_length_of_mem hd')

end Stage

/-! ## Levels as lengths of chains -/

namespace IsLevelling

variable {n : Nat} {next : Fin n → List (Fin n)} {level : Fin n → Nat}

/-- No chain is longer than the level of the place where it starts. -/
theorem length_le (h : IsLevelling next level) {i : Fin n} {rest : List (Fin n)}
    (hchain : (i :: rest).IsChain (Cycle.Edge next)) : rest.length ≤ level i := by
  induction rest generalizing i with
  | nil => exact Nat.zero_le _
  | cons d rest ih =>
    obtain ⟨hd, hrest⟩ := List.isChain_cons_cons.mp hchain
    exact Nat.lt_of_le_of_lt (ih hrest) (h.lt hd)

theorem exists_chain (h : IsLevelling next level) (i : Fin n) :
    ∃ rest, (i :: rest).IsChain (Cycle.Edge next) ∧ rest.length = level i := by
  induction hl : level i using Nat.strong_induction_on generalizing i with
  | h l ih =>
    subst hl
    rcases Nat.eq_zero_or_eq_succ_pred (level i) with hzero | hsucc
    · exact ⟨[], List.isChain_singleton i, hzero.symm⟩
    · have hbelow : (level i).pred < chainAbove ((next i).map level) := by
        rw [← h i]
        omega
      obtain ⟨l, hl, hle⟩ := lt_chainAbove_iff.mp hbelow
      obtain ⟨d, hd, rfl⟩ := List.mem_map.mp hl
      have hlt := h.lt hd
      obtain ⟨rest, hchain, hlength⟩ := ih (level d) hlt d rfl
      refine ⟨d :: rest, hchain.cons_cons hd, ?_⟩
      rw [List.length_cons, hlength]
      omega

end IsLevelling

namespace StageGraph

/-- The places in the order of their levels. -/
def byLevel {n : Nat} (level : Fin n → Nat) : List (Fin n) :=
  (List.finRange n).mergeSort fun i j => level i ≤ level j

theorem pairwise_byLevel {n : Nat} (level : Fin n → Nat) :
    (byLevel level).Pairwise fun i j => level i ≤ level j := by
  have hsorted : (byLevel level).Pairwise fun i j => decide (level i ≤ level j) := by
    apply List.pairwise_mergeSort
    · intro i j k hij hjk
      exact decide_eq_true (Nat.le_trans (of_decide_eq_true hij) (of_decide_eq_true hjk))
    · intro i j
      simpa using Nat.le_total (level i) (level j)
  exact hsorted.imp of_decide_eq_true

theorem bottomUp_byLevel {n : Nat} {next : Fin n → List (Fin n)} {level : Fin n → Nat}
    (h : IsLevelling next level) : BottomUp next (byLevel level) := by
  have hall : ∀ i, i ∈ byLevel level := fun i => List.mem_mergeSort.mpr (List.mem_finRange i)
  have hsorted := pairwise_byLevel level
  refine ⟨hall, fun pre i post hsplit d hd => ?_⟩
  have hlt := h.lt hd
  have hlisted := hall d
  rw [hsplit] at hsorted hlisted
  have hbehind := (List.pairwise_cons.mp (List.pairwise_append.mp hsorted).2.1).1
  rcases List.mem_append.mp hlisted with hpre | hlisted
  · exact hpre
  · rcases List.mem_cons.mp hlisted with rfl | hpost
    · exact (Nat.lt_irrefl _ hlt).elim
    · have hle := hbehind d hpost
      omega

theorem levelsAlong_get {n : Nat} {deps : Row (List (Fin n)) n} {level : Fin n → Nat}
    (h : IsLevelling deps.get level) {order : List (Fin n)}
    (hbefore : ∀ pre i post, order = pre ++ i :: post → deps.get i ⊆ pre) :
    ∀ i ∈ order, (levelsAlong deps order).get i = level i := by
  induction order using List.reverseRecOn with
  | nil => exact fun i hi => (List.not_mem_nil hi).elim
  | append_singleton order j ih =>
    have hlisted : ∀ i ∈ order, (levelsAlong deps order).get i = level i :=
      ih fun pre i post hsplit => hbefore pre i (post ++ [j]) (by simp [hsplit])
    have hdeps : deps.get j ⊆ order := hbefore order j [] rfl
    have hj : chainAbove ((deps.get j).map (levelsAlong deps order).get) = level j := by
      rw [h j]
      exact congrArg chainAbove (List.map_congr_left fun d hd => hlisted d (hdeps hd))
    intro i hi
    rw [levelsAlong, List.foldl_concat, Row.get_put]
    split
    next hij => exact hij ▸ hj
    next hij =>
      refine hlisted i ((List.mem_append.mp hi).resolve_right fun h => hij ?_)
      exact (List.mem_singleton.mp h).symm

/-! ## The whole graph -/

/-- The tables filled with all that the steps mention. -/
def tables (g : StageGraph) : Tables g.size :=
  Tables.fill fun i => (g.step i).requires.filterMap g.indexOf?

/-- The steps that a step requires, each listed once, in the order of first mention. -/
structure Lists (g : StageGraph) (i : Fin g.size) (ds : List (Fin g.size)) : Prop where
  nodup : ds.Nodup
  mem : ∀ d, d ∈ ds ↔ g.Requires i d
  named : ∀ r ∈ (g.step i).requires, ∃ d ∈ ds, g.name d = r
  order : ds.Pairwise fun d e =>
    (g.step i).requires.idxOf (g.name d) < (g.step i).requires.idxOf (g.name e)

/-- A stage graph answers for its stage. -/
structure Represents (g : StageGraph) : Prop where
  index : ∀ i, g.indexOf? (g.name i) = some i
  dependencies : ∀ i : Fin g.size, ∃ ds, g.dependenciesOf i = ds.map Fin.val ∧ g.Lists i ds
  dependents_sorted : ∀ d, (g.dependentsOf d).Pairwise (· < ·)
  mem_dependents : ∀ i d, i ∈ g.dependentsOf d ↔ d ∈ g.dependenciesOf i
  level : ∀ i : Fin g.size, IsGreatest
    {k | ∃ rest : List (Fin g.size), (i :: rest).IsChain g.Requires ∧ rest.length = k} (g.levelOf i)
  level_eq_zero : ∀ i : Fin g.size, g.levelOf i = 0 ↔ (g.step i).requires = []
  level_lt : ∀ i d : Fin g.size, g.DependsOn i d → g.levelOf d < g.levelOf i
  level_lt_size : ∀ i : Fin g.size, g.levelOf i < g.size
  /-- One pass over all that is mentioned fills the lists of both kinds. -/
  filled : ∀ i : Fin g.size, g.dependenciesOf i = (g.tables.deps.get i).map Fin.val ∧
    g.dependentsOf i = (g.tables.dependents.get i).map Fin.val
  ordered : ∃ order, BottomUp g.deps.get order
  /-- Any order in which requirements come first will do to find the levels. -/
  levelled : ∀ order, BottomUp g.deps.get order → levelsAlong g.deps order = g.levels

section
variable {g : StageGraph} {i : Fin g.size}

theorem dependenciesOf_fin (g : StageGraph) (i : Fin g.size) :
    g.dependenciesOf i = (g.deps.get i).map Fin.val := dif_pos i.isLt

theorem levelOf_fin (g : StageGraph) (i : Fin g.size) : g.levelOf i = g.levels.get i := dif_pos i.isLt

theorem mem_dependenciesOf {i d : Nat} : d ∈ g.dependenciesOf i ↔
    ∃ (hi : i < g.size) (hd : d < g.size), g.Requires ⟨i, hi⟩ ⟨d, hd⟩ := by
  unfold dependenciesOf
  split
  next hi =>
    rw [List.mem_map]
    constructor
    · rintro ⟨j, hj, rfl⟩
      exact ⟨hi, j.isLt, mem_deps.mp hj⟩
    · rintro ⟨_, hd, h⟩
      exact ⟨⟨d, hd⟩, mem_deps.mpr h, rfl⟩
  next hi =>
    refine ⟨fun h => (List.not_mem_nil h).elim, fun ⟨h, _⟩ => (hi h).elim⟩

theorem mem_dependentsOf {i d : Nat} : i ∈ g.dependentsOf d ↔
    ∃ (hi : i < g.size) (hd : d < g.size), g.Requires ⟨i, hi⟩ ⟨d, hd⟩ := by
  simp only [dependentsOf, List.mem_map, List.mem_filter, List.mem_finRange, true_and, List.any_eq_true,
    decide_eq_true_eq]
  constructor
  · rintro ⟨j, ⟨e, he, rfl⟩, rfl⟩
    exact ⟨j.isLt, e.isLt, mem_deps.mp he⟩
  · rintro ⟨hi, hd, h⟩
    exact ⟨⟨i, hi⟩, ⟨⟨d, hd⟩, mem_deps.mpr h, rfl⟩, rfl⟩

theorem pairwise_dependentsOf (g : StageGraph) (d : Nat) : (g.dependentsOf d).Pairwise (· < ·) := by
  rw [dependentsOf, List.pairwise_map]
  exact (List.pairwise_lt_finRange g.size).filter _

theorem isLevelling (g : StageGraph) : IsLevelling g.deps.get g.levels.get := g.levels_eq

theorem edge_deps (g : StageGraph) : Cycle.Edge g.deps.get = g.Requires := by
  funext i d
  exact propext mem_deps

theorem lists_deps (hnamed : ∀ r ∈ (g.step i).requires, r ∈ g.stage.names) :
    g.Lists i (g.deps.get i) := by
  have horder := Stage.pairwise_first_mention g.names_nodup (g.step i).requires
  have hdeps : ((g.step i).requires.filterMap g.stage.indexOf?).eraseDups = g.deps.get i :=
    (g.deps_eq i).symm
  rw [hdeps] at horder
  refine ⟨horder.imp fun hlt heq => ?_, fun d => mem_deps, fun r hr => ?_, horder⟩
  · exact Nat.lt_irrefl _ (heq ▸ hlt)
  · have hname := hnamed r hr
    rw [names_eq, List.mem_map] at hname
    obtain ⟨d, -, rfl⟩ := hname
    exact ⟨d, mem_deps.mpr hr, rfl⟩

theorem level_isGreatest (g : StageGraph) (i : Fin g.size) : IsGreatest
    {k | ∃ rest : List (Fin g.size), (i :: rest).IsChain g.Requires ∧ rest.length = k}
    (g.levels.get i) := by
  rw [← edge_deps]
  refine ⟨g.isLevelling.exists_chain i, ?_⟩
  rintro k ⟨rest, hchain, rfl⟩
  exact g.isLevelling.length_le hchain

theorem level_eq_zero_iff (hlists : g.Lists i (g.deps.get i)) :
    g.levels.get i = 0 ↔ (g.step i).requires = [] := by
  constructor
  · intro hzero
    refine List.eq_nil_iff_forall_not_mem.mpr fun r hr => ?_
    obtain ⟨d, hd, -⟩ := hlists.named r hr
    have hlt := g.isLevelling.lt hd
    omega
  · intro hnone
    refine Nat.eq_zero_of_not_pos fun hpos => ?_
    rw [g.levels_eq i] at hpos
    obtain ⟨l, hl, -⟩ := lt_chainAbove_iff.mp hpos
    obtain ⟨d, hd, -⟩ := List.mem_map.mp hl
    have hrequires := mem_deps.mp hd
    rw [Requires, hnone] at hrequires
    exact List.not_mem_nil hrequires

theorem tables_filled (g : StageGraph) (i : Fin g.size) :
    g.dependenciesOf i = (g.tables.deps.get i).map Fin.val ∧
    g.dependentsOf i = (g.tables.dependents.get i).map Fin.val := by
  obtain ⟨hdeps, hdependents⟩ := Tables.fill_holds fun i => (g.step i).requires.filterMap g.indexOf?
  have heq : ∀ j, ((g.step j).requires.filterMap g.indexOf?).eraseDups = g.deps.get j := fun j =>
    (g.deps_eq j).symm
  constructor
  · rw [dependenciesOf_fin, tables, hdeps, if_pos (List.mem_finRange i), heq]
  · rw [tables, hdependents, dependentsOf]
    refine congrArg (List.map Fin.val) (List.filter_congr fun j _ => ?_)
    rw [← heq j, Bool.eq_iff_iff]
    simp [Fin.val_inj]

theorem represents (hnamed : ∀ i, ∀ r ∈ (g.step i).requires, r ∈ g.stage.names) : g.Represents where
  index := g.indexOf?_name
  dependencies i := ⟨g.deps.get i, g.dependenciesOf_fin i, lists_deps (hnamed i)⟩
  dependents_sorted := g.pairwise_dependentsOf
  mem_dependents _ _ := mem_dependentsOf.trans mem_dependenciesOf.symm
  level i := by
    rw [levelOf_fin]
    exact g.level_isGreatest i
  level_eq_zero i := by
    rw [levelOf_fin]
    exact level_eq_zero_iff (lists_deps (hnamed i))
  level_lt i d h := by
    rw [levelOf_fin, levelOf_fin]
    exact g.isLevelling.lt_of_transGen (g.edge_deps ▸ h)
  level_lt_size i := by
    rw [levelOf_fin]
    exact g.isLevelling.lt_size i
  filled := g.tables_filled
  ordered := ⟨byLevel g.levels.get, bottomUp_byLevel g.isLevelling⟩
  levelled order h := Row.ext fun i => levelsAlong_get g.isLevelling h.before i (h.all i)

end

/-- **Representation.** A graph that is built is a graph of the stage and answers for it: it finds the
places of names, the requirements of a step in order of first mention and its dependents in order of
declaration, each once, and the lengths of the longest chains of requirements. -/
theorem build_represents [Toposort] {stage : Stage} {actions : Actions} {g : StageGraph}
    (h : build stage actions = .ok g) : g.stage = stage ∧ g.Represents := by
  have hbuilt := build_built stage actions
  rw [h] at hbuilt
  obtain ⟨rfl, hvalid⟩ := hbuilt
  refine ⟨rfl, represents fun i => ?_⟩
  exact (hvalid.refers (g.step i) (List.get_mem g.stage.steps i)).2

/-- A stage in which requirements come after the steps that mention them, one of them twice. -/
def backwards : Stage where
  name := "backwards"
  steps := [{ name := "publish", action := "make", requires := ["test", "build", "test"] },
    { name := "build", action := "make" }, { name := "docs", action := "make" },
    { name := "test", action := "make", requires := ["build"] }]

section
attribute [local instance] Cycle.toposort

theorem backwards_represents : ∃ g, build backwards tangledActions = .ok g ∧ g.Represents ∧
    g.dependenciesOf 0 = [3, 1] ∧ g.dependentsOf 1 = [0, 3] ∧ g.levelOf 0 = 2 := by
  obtain ⟨g, hbuild, hdeps, hdependents, hlevel⟩ : ∃ g, build backwards tangledActions = .ok g ∧
      g.dependenciesOf 0 = [3, 1] ∧ g.dependentsOf 1 = [0, 3] ∧ g.levelOf 0 = 2 :=
    ⟨_, rfl, by decide, by decide, by decide⟩
  exact ⟨g, hbuild, (build_represents hbuild).2, hdeps, hdependents, hlevel⟩

end

end StageGraph
end StageFlow
