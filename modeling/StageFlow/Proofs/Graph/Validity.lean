import StageFlow.Proofs.Graph.Levels

/-!
# Valid stages

A stage graph is built for just the stages that are valid: names are distinct, everything that is
referred to exists, and requirements have no cycle. For any other stage building it fails with the first
of its faults, in the order in which `Stage.Faulty` lists them (`StageGraph.build_exact`).
-/

namespace StageFlow

variable {stage : Stage} {actions : Actions} {s : Step} {e : RunError}

namespace Stage

/-- The action of a step and everything that it requires exist. -/
def Refers (stage : Stage) (actions : Actions) (s : Step) : Prop :=
  actions.contains s.action ∧ ∀ r ∈ s.requires, r ∈ stage.names

/-- Nothing is wrong with a stage. -/
structure Valid (stage : Stage) (actions : Actions) : Prop where
  names : stage.names.Nodup
  refers : ∀ s ∈ stage.steps, stage.Refers actions s
  acyclic : ∀ i, ¬Relation.TransGen stage.Requires i i

/-- The first fault of a stage. Names come before references, and references before cycles; of the
steps with a fault in their references the first one counts, and of that step its action before its
requirements, in their order. -/
inductive Faulty (stage : Stage) (actions : Actions) : RunError → Prop
  | repeated {pre s post} (split : stage.steps = pre ++ s :: post)
      (distinct : (pre.map Step.name).Nodup) (again : s.name ∈ pre.map Step.name) :
      Faulty stage actions (.config (.repeatedStep stage.name s.name))
  | action {pre s post} (names : stage.names.Nodup) (split : stage.steps = pre ++ s :: post)
      (before : ∀ t ∈ pre, stage.Refers actions t) (unknown : ¬actions.contains s.action) :
      Faulty stage actions (.unknownAction stage.name s.name s.action)
  | dependency {pre s post found r others} (names : stage.names.Nodup)
      (split : stage.steps = pre ++ s :: post) (before : ∀ t ∈ pre, stage.Refers actions t)
      (known : actions.contains s.action) (requires : s.requires = found ++ r :: others)
      (first : ∀ r ∈ found, r ∈ stage.names) (unknown : r ∉ stage.names) :
      Faulty stage actions (.unknownDependency stage.name s.name r)
  | cycle {i members} (names : stage.names.Nodup)
      (refers : ∀ s ∈ stage.steps, stage.Refers actions s)
      (cyclic : Relation.TransGen stage.Requires i i) :
      Faulty stage actions (.cycle stage.name members)

theorem not_nodup_of_again {pre post : List Step} (h : stage.steps = pre ++ s :: post)
    (hs : s.name ∈ pre.map Step.name) : ¬stage.names.Nodup := by
  intro hnodup
  rw [names, h, List.map_append, List.map_cons, List.nodup_append] at hnodup
  exact hnodup.2.2 s.name hs s.name List.mem_cons_self rfl

theorem Faulty.not_valid (h : stage.Faulty actions e) : ¬stage.Valid actions := by
  intro hvalid
  have hrefers : ∀ {pre post : List Step} {s : Step}, stage.steps = pre ++ s :: post →
      stage.Refers actions s := by
    intro pre post s hsplit
    exact hvalid.refers s (by simp [hsplit])
  cases h with
  | repeated split _ again => exact not_nodup_of_again split again hvalid.names
  | action _ split _ unknown => exact unknown (hrefers split).1
  | dependency _ split _ _ requires _ unknown =>
    exact unknown ((hrefers split).2 _ (by simp [requires]))
  | cycle _ _ cyclic => exact hvalid.acyclic _ cyclic

end Stage

namespace StageGraph

/-! ## The checks, one by one -/

/-- The first step whose name an earlier step has. -/
theorem firstRepeated?_eq_some {ss : List Step} {seen : List String}
    (h : firstRepeated? ss seen = some s) : ∃ pre post, ss = pre ++ s :: post ∧
      (pre.map Step.name).Nodup ∧ (∀ t ∈ pre, t.name ∉ seen) ∧
      (s.name ∈ seen ∨ s.name ∈ pre.map Step.name) := by
  induction ss generalizing seen with
  | nil => cases h
  | cons t ss ih =>
    unfold firstRepeated? at h
    split at h
    next ht =>
      cases h
      exact ⟨[], ss, rfl, List.nodup_nil, fun _ hu => (List.not_mem_nil hu).elim, .inl ht⟩
    next ht =>
      obtain ⟨pre, post, rfl, hnodup, hfresh, hagain⟩ := ih h
      refine ⟨t :: pre, post, rfl, ?_, List.forall_mem_cons.mpr ⟨ht, fun u hu hseen => ?_⟩, ?_⟩
      · rw [List.map_cons, List.nodup_cons]
        refine ⟨fun hmem => ?_, hnodup⟩
        obtain ⟨u, hu, hname⟩ := List.mem_map.mp hmem
        exact hfresh u hu (hname ▸ List.mem_cons_self)
      · exact hfresh u hu (List.mem_cons_of_mem _ hseen)
      · simp only [List.mem_cons] at hagain
        simp only [List.map_cons, List.mem_cons]
        tauto

theorem firstRepeated?_eq_none_iff :
    firstRepeated? stage.steps [] = none ↔ stage.names.Nodup := by
  constructor
  · intro h
    exact (nodup_of_firstRepeated? h).1
  · intro hnodup
    cases h : firstRepeated? stage.steps [] with
    | none => rfl
    | some s =>
      obtain ⟨pre, post, hsplit, -, -, hagain⟩ := firstRepeated?_eq_some h
      have hagain := hagain.resolve_left List.not_mem_nil
      exact (Stage.not_nodup_of_again hsplit hagain hnodup).elim

theorem stepFault?_eq_none_iff : stepFault? stage actions s = none ↔ stage.Refers actions s := by
  unfold stepFault? Stage.Refers
  cases actions.contains s.action with
  | false => simp
  | true => simp [Stage.indexOf?_eq_none_iff]

theorem findSome?_stepFault?_eq_none_iff : stage.steps.findSome? (stepFault? stage actions) = none ↔
    ∀ s ∈ stage.steps, stage.Refers actions s := by
  rw [List.findSome?_eq_none_iff]
  exact forall₂_congr fun _ _ => stepFault?_eq_none_iff

/-- The first fault in the references of the steps. -/
theorem faulty_of_stepFault? (hnodup : stage.names.Nodup)
    (h : stage.steps.findSome? (stepFault? stage actions) = some e) : stage.Faulty actions e := by
  obtain ⟨pre, s, post, hsplit, hs, hpre⟩ := List.findSome?_eq_some_iff.mp h
  have hbefore : ∀ t ∈ pre, stage.Refers actions t := fun t ht => stepFault?_eq_none_iff.mp (hpre t ht)
  unfold stepFault? at hs
  split at hs
  next hunknown =>
    cases hs
    exact .action hnodup hsplit hbefore (by simpa using hunknown)
  next hknown =>
    obtain ⟨r, hr, rfl⟩ := Option.map_eq_some_iff.mp hs
    obtain ⟨hunknown, found, others, hrequires, hfirst⟩ := List.find?_eq_some_iff_append.mp hr
    refine .dependency hnodup hsplit hbefore (by simpa using hknown) hrequires (fun r' hr' => ?_) ?_
    · have hfound := hfirst r' hr'
      by_contra hmissing
      rw [Stage.indexOf?_eq_none_iff.mpr hmissing] at hfound
      cases hfound
    · exact Stage.indexOf?_eq_none_iff.mp (Option.isNone_iff_eq_none.mp hunknown)

/-- The search for a cycle and the sort go along the requirements. -/
theorem edge_eq_requires (hnodup : stage.names.Nodup) :
    Cycle.Edge (Row.ofFn stage.requirements).get = stage.Requires := by
  funext i d
  rw [Cycle.Edge, Row.get_ofFn]
  exact propext (Stage.mem_requirements hnodup)

/-! ## Building a graph -/

/-- What building a graph comes to. -/
def Built (stage : Stage) (actions : Actions) : Except RunError StageGraph → Prop
  | .ok g => g.stage = stage ∧ stage.Valid actions
  | .error e => stage.Faulty actions e

theorem build_built [Toposort] (stage : Stage) (actions : Actions) :
    Built stage actions (build stage actions) := by
  unfold build
  split
  next s hs =>
    obtain ⟨pre, post, hsplit, hdistinct, -, hagain⟩ := firstRepeated?_eq_some hs
    exact Stage.Faulty.repeated hsplit hdistinct (hagain.resolve_left List.not_mem_nil)
  next hrep =>
    have hnodup := firstRepeated?_eq_none_iff.mp hrep
    split
    next e he => exact faulty_of_stepFault? hnodup he
    next href =>
      have hrefers := findSome?_stepFault?_eq_none_iff.mp href
      dsimp only
      split
      next members hmembers =>
        obtain ⟨i, hi⟩ := (Cycle.find?_isCycle hmembers).exists_transGen
        rw [edge_eq_requires hnodup] at hi
        exact Stage.Faulty.cycle hnodup hrefers hi
      next hcycle =>
        have hacyclic := Cycle.find?_eq_none_iff.mp hcycle
        split
        next i hi => exact (hacyclic i (Toposort.cyclic hi)).elim
        next =>
          rw [edge_eq_requires hnodup] at hacyclic
          exact ⟨rfl, hnodup, hrefers, hacyclic⟩

/-- **Validation.** A graph is built for just the valid stages, and it is a graph of that stage. For any
other stage building fails with its first fault, and never because levels could not be found. -/
theorem build_exact [Toposort] (stage : Stage) (actions : Actions) :
    ((∃ g, build stage actions = .ok g) ↔ stage.Valid actions) ∧
    (∀ g, build stage actions = .ok g → g.stage = stage) ∧
    (∀ e, build stage actions = .error e → stage.Faulty actions e) ∧
    ∀ i, build stage actions ≠ .error (.config (.noLevels i)) := by
  have hbuilt := build_built stage actions
  refine ⟨⟨?_, fun hvalid => ?_⟩, ?_, ?_, ?_⟩
  · rintro ⟨g, hg⟩
    rw [hg] at hbuilt
    exact hbuilt.2
  · cases h : build stage actions with
    | ok g => exact ⟨g, rfl⟩
    | error e =>
      rw [h] at hbuilt
      exact (Stage.Faulty.not_valid hbuilt hvalid).elim
  · intro g hg
    rw [hg] at hbuilt
    exact hbuilt.1
  · intro e he
    rw [he] at hbuilt
    exact hbuilt
  · intro i hi
    rw [hi] at hbuilt
    cases hbuilt

/-- The first two steps require each other, the second one also a step that does not exist, and the
third one has an action that does not exist. -/
def tangled : Stage where
  name := "tangled"
  steps := [{ name := "a", action := "make", requires := ["b"] },
    { name := "b", action := "make", requires := ["a", "gone"] }, { name := "c", action := "lost" }]

/-- The one action that the steps of `tangled` can have. -/
def tangledActions : Actions := Actions.ofList [{ name := "make", kind := .run (.command "make") }]

section
attribute [local instance] Cycle.toposort

theorem tangled_faulty :
    build tangled tangledActions = .error (.unknownDependency "tangled" "b" "gone") ∧
    tangled.Faulty tangledActions (.unknownDependency "tangled" "b" "gone") ∧
    ¬tangled.Valid tangledActions := by
  have hbuild : build tangled tangledActions = .error (.unknownDependency "tangled" "b" "gone") := rfl
  obtain ⟨hvalid, -, hfaulty, -⟩ := build_exact tangled tangledActions
  refine ⟨hbuild, hfaulty _ hbuild, fun h => ?_⟩
  obtain ⟨g, hg⟩ := hvalid.mpr h
  cases hbuild.symm.trans hg

end

end StageGraph
end StageFlow
