import StageFlow.Proofs.Config.Reading
import StageFlow.Proofs.Graph.Validity

/-!
# Valid configurations

A configuration is accepted if and only if it is valid, and then says what was written
(`Written.Config.check_exact`). What is valid is put in the terms of what is written
(`Written.Config.Valid`), where a step without a name of its own goes by that of its action and
requirements are names.
-/

namespace StageFlow

/-! ## Requirements by name -/

namespace Stage

variable {s : Stage}

theorem exists_step_of_mem_names {name : String} (h : name ∈ s.names) : ∃ i, (s.step i).name = name := by
  rw [names_eq, List.mem_map] at h
  obtain ⟨i, -, hi⟩ := h
  exact ⟨i, hi⟩

theorem exists_step_of_mem {t : Step} (h : t ∈ s.steps) : ∃ i, s.step i = t :=
  List.mem_iff_get.mp h

/-- Where all names of requirements are names of steps, steps depend on each other as their names do. -/
theorem transGen_requires_of_names (hnodup : s.names.Nodup)
    (hrefers : ∀ t ∈ s.steps, ∀ r ∈ t.requires, r ∈ s.names) {a b : String}
    (h : Relation.TransGen s.RequiresName a b) :
    ∃ i j, (s.step i).name = a ∧ (s.step j).name = b ∧ Relation.TransGen s.Requires i j := by
  have hsingle : ∀ {a b}, s.RequiresName a b →
      ∃ i j, (s.step i).name = a ∧ (s.step j).name = b ∧ s.Requires i j := by
    rintro a b ⟨t, ht, rfl, hb⟩
    obtain ⟨i, rfl⟩ := exists_step_of_mem ht
    obtain ⟨j, rfl⟩ := exists_step_of_mem_names (hrefers _ ht b hb)
    exact ⟨i, j, rfl, rfl, hb⟩
  induction h with
  | single hab =>
    obtain ⟨i, j, hi, hj, hij⟩ := hsingle hab
    exact ⟨i, j, hi, hj, .single hij⟩
  | tail _ hbc ih =>
    obtain ⟨i, j, hi, hj, hij⟩ := ih
    obtain ⟨j', k, hj', hk, hjk⟩ := hsingle hbc
    -- the step that is required and the one that requires more bear the same name
    obtain rfl : j = j' := name_injective hnodup (hj.trans hj'.symm)
    exact ⟨i, k, hi, hk, hij.tail hjk⟩

theorem acyclic_iff_names (hnodup : s.names.Nodup)
    (hrefers : ∀ t ∈ s.steps, ∀ r ∈ t.requires, r ∈ s.names) :
    (∀ i, ¬Relation.TransGen s.Requires i i) ↔ ∀ name, ¬Relation.TransGen s.RequiresName name name := by
  constructor
  · intro hacyclic name h
    obtain ⟨i, j, hi, hj, hij⟩ := transGen_requires_of_names hnodup hrefers h
    obtain rfl : i = j := name_injective hnodup (hi.trans hj.symm)
    exact hacyclic i hij
  · intro hacyclic i h
    refine hacyclic (s.step i).name (h.lift (fun i => (s.step i).name) fun i j hij => ?_)
    exact ⟨s.step i, List.getElem_mem _, rfl, hij⟩

end Stage

theorem StageGraph.exists_build_iff [Toposort] {stage : Stage} {actions : Actions} :
    (∃ g, build stage actions = .ok g) ↔ stage.Valid actions := by
  have hbuilt := build_built stage actions
  cases h : build stage actions with
  | ok g =>
    rw [h] at hbuilt
    exact ⟨fun _ => hbuilt.2, fun _ => ⟨g, rfl⟩⟩
  | error e =>
    rw [h] at hbuilt
    exact ⟨nofun, fun hvalid => (Stage.Faulty.not_valid hbuilt hvalid).elim⟩

namespace Written

/-! ## What is valid -/

/-- Exactly one of a command and a builtin is given, and no variants; or neither of them but variants,
and in every variant exactly one of them. -/
def Action.OneShape (w : Action) : Prop :=
  (Xor w.cmd.isSome w.builtin.isSome ∧ w.variants = []) ∨
    (w.cmd = none ∧ w.builtin = none ∧ w.variants ≠ [] ∧
      ∀ v ∈ w.variants, Xor v.cmd.isSome v.builtin.isSome)

/-- A step of one name requires another name. -/
def Stage.Requires (w : Stage) (a b : String) : Prop :=
  ∃ t ∈ w.steps, t.effectiveName = a ∧ b ∈ t.requires

/-- Nothing is wrong with a stage. -/
structure Stage.Valid (w : Stage) (actions : Table Action) : Prop where
  names : (w.steps.map Step.effectiveName).Nodup
  conditions : ∀ t ∈ w.steps, t.condition = none ∨ t.only = none
  actions : ∀ t ∈ w.steps, t.action ∈ actions.keys
  requires : ∀ t ∈ w.steps, ∀ r ∈ t.requires, r ∈ w.steps.map Step.effectiveName
  acyclic : ∀ name, ¬Relation.TransGen w.Requires name name

/-- Nothing is wrong with a configuration. -/
structure Config.Valid (w : Config) : Prop where
  someStage : w.stages.keys ≠ []
  parallel : w.options.maxParallel ≠ some 0
  actions : ∀ a ∈ w.actions.values, a.OneShape
  stages : ∀ s ∈ w.stages.values, s.Valid w.actions

/-! ## Actions -/

theorem exists_runs_iff {cmd builtin : Option String} :
    (∃ run, Runs cmd builtin run) ↔ Xor cmd.isSome builtin.isSome := by
  constructor
  · rintro ⟨run, _ | _⟩ <;> simp [Xor]
  · cases cmd with
    | none =>
      cases builtin with
      | none => simp [Xor]
      | some name => exact fun _ => ⟨_, .builtin⟩
    | some cmd =>
      cases builtin with
      | none => exact fun _ => ⟨_, .command⟩
      | some name => simp [Xor]

theorem Action.exists_hasShape_iff {w : Action} : (∃ kind, w.HasShape kind) ↔ w.OneShape := by
  have hvariants : (∃ vs, List.Forall₂ Variant.Reads w.variants vs) ↔
      ∀ v ∈ w.variants, Xor v.cmd.isSome v.builtin.isSome := by
    rw [exists_forall₂_iff]
    refine forall₂_congr fun v _ => ?_
    rw [← exists_runs_iff]
    constructor
    · rintro ⟨v', hv'⟩
      exact ⟨v'.run, hv'.run⟩
    · rintro ⟨run, hrun⟩
      exact ⟨⟨v.guard, run⟩, rfl, hrun⟩
  unfold OneShape
  rw [← exists_runs_iff, ← hvariants]
  constructor
  · rintro ⟨kind, ⟨runs, hnone⟩ | ⟨hcmd, hbuiltin, hsome, hreads⟩⟩
    · exact .inl ⟨⟨_, runs⟩, hnone⟩
    · exact .inr ⟨hcmd, hbuiltin, hsome, _, hreads⟩
  · rintro (⟨⟨run, runs⟩, hnone⟩ | ⟨hcmd, hbuiltin, hsome, vs, hreads⟩)
    · exact ⟨_, .run runs hnone⟩
    · exact ⟨_, .variants hcmd hbuiltin hsome hreads⟩

/-! ## Stages -/

section
variable {name : String} {w : Stage} {s : StageFlow.Stage} {actions : Actions}
  {written : Table Action}

theorem Stage.Reads.names_eq (h : w.Reads name s) : s.names = w.steps.map Step.effectiveName := by
  have hnames : List.Forall₂ (· = ·) (w.steps.map Step.effectiveName) s.names := by
    rw [StageFlow.Stage.names, List.forall₂_map_left_iff, List.forall₂_map_right_iff]
    exact h.steps.imp fun _ _ ht => ht.name.symm
  exact (List.forall₂_eq_eq_eq ▸ hnames).symm

theorem Stage.Reads.requires_eq (h : w.Reads name s) : s.RequiresName = w.Requires := by
  funext a b
  refine propext (exists_mem_iff_of_forall₂ h.steps fun ht => ?_).symm
  rw [ht.name, ht.requires]

/-- What is wrong with a stage is what is wrong with what was written. -/
theorem Stage.Reads.valid_iff (h : w.Reads name s) (hkeys : actions.keys = written.keys) :
    w.Valid written ↔ (∀ t ∈ w.steps, t.OneCondition) ∧ s.Valid actions := by
  have hactions : (∀ t ∈ w.steps, t.action ∈ written.keys) ↔
      ∀ t ∈ s.steps, actions.contains t.action := by
    refine forall_mem_iff_of_forall₂ h.steps fun ht => ?_
    rw [Table.contains_iff, hkeys, ht.action]
  have hrequires : (∀ t ∈ w.steps, ∀ r ∈ t.requires, r ∈ w.steps.map Step.effectiveName) ↔
      ∀ t ∈ s.steps, ∀ r ∈ t.requires, r ∈ s.names := by
    refine forall_mem_iff_of_forall₂ h.steps fun ht => ?_
    rw [h.names_eq, ht.requires]
  constructor
  · intro hvalid
    have hnodup : s.names.Nodup := h.names_eq ▸ hvalid.names
    have hnames := hrequires.mp hvalid.requires
    refine ⟨hvalid.conditions, hnodup, fun t ht => ⟨hactions.mp hvalid.actions t ht, hnames t ht⟩, ?_⟩
    rw [StageFlow.Stage.acyclic_iff_names hnodup hnames, h.requires_eq]
    exact hvalid.acyclic
  · rintro ⟨hone, hvalid⟩
    have hnames := fun t ht => (hvalid.refers t ht).2
    have hacyclic := (StageFlow.Stage.acyclic_iff_names hvalid.names hnames).mp hvalid.acyclic
    exact {
      names := h.names_eq ▸ hvalid.names
      conditions := hone
      actions := hactions.mpr fun t ht => (hvalid.refers t ht).1
      requires := hrequires.mpr hnames
      acyclic := h.requires_eq ▸ hacyclic }

theorem Stage.checkGraph_eq_ok_iff [Toposort] (hkeys : actions.keys = written.keys) :
    w.checkGraph actions name = .ok s ↔ w.Valid written ∧ w.Reads name s := by
  have hcheck : w.checkGraph actions name = .ok s ↔
      w.check name = .ok s ∧ ∃ g, StageGraph.build s actions = .ok g := by
    unfold checkGraph
    simp only [bind_eq_ok]
    constructor
    · rintro ⟨s, hs, g, hg, h⟩
      cases h
      exact ⟨hs, g, hg⟩
    · rintro ⟨hs, g, hg⟩
      exact ⟨s, hs, g, hg, rfl⟩
  rw [hcheck, check_eq_ok_iff, StageGraph.exists_build_iff]
  constructor
  · rintro ⟨⟨⟨hone, -⟩, hreads⟩, hvalid⟩
    exact ⟨(hreads.valid_iff hkeys).mpr ⟨hone, hvalid⟩, hreads⟩
  · rintro ⟨hwritten, hreads⟩
    obtain ⟨hone, hvalid⟩ := (hreads.valid_iff hkeys).mp hwritten
    exact ⟨⟨⟨hone, hwritten.names⟩, hreads⟩, hvalid⟩

theorem Stage.exists_reads (name : String) (w : Stage) : ∃ s, w.Reads name s := by
  have hsteps : ∀ t ∈ w.steps, ∃ t', Step.Reads t t' :=
    fun _ _ => ⟨⟨_, _, _, _, _⟩, rfl, rfl, rfl, rfl, rfl⟩
  obtain ⟨steps, hreads⟩ := exists_forall₂_iff.mpr hsteps
  exact ⟨⟨name, w.description, steps⟩, rfl, rfl, hreads⟩

end

/-! ## Configurations -/

namespace Config

variable {w : Config} {c : StageFlow.Config}

theorem check_eq_ok_iff [Toposort] : w.check = .ok c ↔ w.Valid ∧ w.Reads c := by
  unfold check
  split
  next hnone =>
    constructor
    · intro h
      cases h
    · rintro ⟨hvalid, -⟩
      refine (hvalid.someStage ?_).elim
      rw [Table.keys, List.isEmpty_iff.mp hnone]
      rfl
  next hsome =>
    split
    next hzero =>
      constructor
      · intro h
        cases h
      · rintro ⟨hvalid, -⟩
        exact (hvalid.parallel hzero).elim
    next hparallel =>
      simp only [bind_eq_ok, checkTable_eq_ok_iff, Action.check_eq_ok_iff]
      constructor
      · rintro ⟨actions, hactions, stages, hstages, h⟩
        cases h
        simp only [Stage.checkGraph_eq_ok_iff hactions.keys_eq, Table.forall₂_and_left] at hstages
        refine ⟨⟨?_, hparallel, ?_, hstages.1⟩, rfl, rfl, rfl, hactions, hstages.2⟩
        · intro hnil
          exact hsome (List.isEmpty_iff.mpr (List.map_eq_nil_iff.mp hnil))
        · exact hactions.forall_left fun ha => Action.exists_hasShape_iff.mp ⟨_, ha.shape⟩
      · obtain ⟨options, vars, inputs, actions, stages⟩ := c
        rintro ⟨hvalid, rfl, rfl, rfl, hactions, hstages⟩
        refine ⟨actions, hactions, stages, ?_, rfl⟩
        simp only [Stage.checkGraph_eq_ok_iff hactions.keys_eq, Table.forall₂_and_left]
        exact ⟨hvalid.stages, hstages⟩

theorem Valid.exists_reads (h : w.Valid) : ∃ c, w.Reads c := by
  have hactions : ∀ name, ∀ a ∈ w.actions.values, ∃ a', Action.Reads name a a' := by
    intro name a ha
    obtain ⟨kind, hkind⟩ := Action.exists_hasShape_iff.mpr (h.actions a ha)
    exact ⟨⟨name, kind, a.env, a.description⟩, rfl, hkind, rfl, rfl⟩
  obtain ⟨actions, hactions⟩ := Table.exists_forall₂ hactions
  obtain ⟨stages, hstages⟩ := Table.exists_forall₂ fun name s _ => Stage.exists_reads name s
  exact ⟨⟨w.options, w.vars.map Toml.value, w.inputs, actions, stages⟩, rfl, rfl, rfl, hactions, hstages⟩

/-- **Validation.** A configuration is accepted if and only if it is valid, and what has been accepted
says what was written. -/
theorem check_exact [Toposort] (w : Config) :
    ((∃ c, w.check = .ok c) ↔ w.Valid) ∧ ∀ c, w.check = .ok c → w.Reads c := by
  refine ⟨⟨?_, fun hvalid => ?_⟩, fun c hc => (check_eq_ok_iff.mp hc).2⟩
  · rintro ⟨c, hc⟩
    exact (check_eq_ok_iff.mp hc).1
  · obtain ⟨c, hreads⟩ := hvalid.exists_reads
    exact ⟨c, check_eq_ok_iff.mpr ⟨hvalid, hreads⟩⟩

/-- A stage of two steps, of which the second one may have a name of its own. -/
def twoSteps (name : Option String) : Config where
  actions := Table.ofList [("make", { cmd := some "make" }),
    ("lint", { variants := [{ guard := "os == 'linux'", builtin := some "lint" }] })]
  stages := Table.ofList [("build", { steps := [{ action := "make" },
    { action := "lint", name, requires := ["make"] }] })]

section
attribute [local instance] Cycle.toposort

/-- The second step may go by the name of its action, but not by that of the first one's. -/
theorem twoSteps_checked :
    (∃ c, (twoSteps none).check = .ok c ∧ (twoSteps none).Reads c) ∧
      (twoSteps (some "make")).check = .error (.config (.duplicateStep "build" "make")) ∧
      ¬(twoSteps (some "make")).Valid := by
  have hok : (twoSteps none).check.toBool = true := by decide +kernel
  have herror : (twoSteps (some "make")).check = .error (.config (.duplicateStep "build" "make")) := rfl
  refine ⟨?_, herror, fun hvalid => ?_⟩
  · cases hcheck : (twoSteps none).check with
    | ok c => exact ⟨c, rfl, (check_exact _).2 c hcheck⟩
    | error e =>
      rw [hcheck] at hok
      cases hok
  · obtain ⟨c, hc⟩ := (check_exact _).1.mpr hvalid
    cases herror.symm.trans hc

end

end Config

end Written
end StageFlow
