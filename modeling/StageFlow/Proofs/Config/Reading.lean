import StageFlow.Config.Basic
import StageFlow.Proofs.Failure

/-!
# What a checked configuration says

A checked configuration says what was written: its stages and actions have the same names, the steps of
a stage stand in the same order, and nothing in them has been changed (`Written.Config.Reads`). What it
takes for a check to succeed, and what it then returns, is said for each check by its own lemma.
-/

namespace StageFlow

namespace Table

variable {α β : Type} {R : String → α → β → Prop} {t : Table α} {t' : Table β}

/-- Two tables bind the same names, to values that are related. -/
def Forall₂ (R : String → α → β → Prop) (t : Table α) (t' : Table β) : Prop :=
  List.Forall₂ (fun e e' => e'.1 = e.1 ∧ R e.1 e.2 e'.2) t.entries t'.entries

theorem Forall₂.keys_eq (h : t.Forall₂ R t') : t'.keys = t.keys := by
  have hkeys : List.Forall₂ (· = ·) (t.entries.map (·.1)) (t'.entries.map (·.1)) := by
    rw [List.forall₂_map_left_iff, List.forall₂_map_right_iff]
    exact h.imp fun _ _ he => he.1.symm
  exact (List.forall₂_eq_eq_eq ▸ hkeys).symm

theorem forall₂_and_left {P : α → Prop} :
    t.Forall₂ (fun name a b => P a ∧ R name a b) t' ↔ (∀ a ∈ t.values, P a) ∧ t.Forall₂ R t' := by
  simp only [Forall₂, and_left_comm, List.forall₂_and_left, values, List.forall_mem_map]

theorem Forall₂.forall_left {P : α → Prop} (h : t.Forall₂ R t')
    (hR : ∀ {name a b}, R name a b → P a) : ∀ a ∈ t.values, P a :=
  (forall₂_and_left.mp (h.imp fun _ _ he => ⟨he.1, hR he.2, he.2⟩)).1

theorem Forall₂.forall_right {Q : β → Prop} (h : t.Forall₂ R t')
    (hR : ∀ {name a b}, R name a b → Q b) : ∀ b ∈ t'.values, Q b := by
  rw [values, List.forall_mem_map]
  exact forall_mem_right_of_forall₂ h fun he => hR he.2

/-- Where each value has a partner there is a table of partners. -/
theorem exists_forall₂ (h : ∀ name, ∀ a ∈ t.values, ∃ b, R name a b) : ∃ t', t.Forall₂ R t' := by
  have hentries : ∀ e ∈ t.entries, ∃ e' : String × β, e'.1 = e.1 ∧ R e.1 e.2 e'.2 := by
    intro e he
    obtain ⟨b, hb⟩ := h e.1 e.2 (List.mem_map_of_mem he)
    exact ⟨(e.1, b), rfl, hb⟩
  obtain ⟨es, hes⟩ := exists_forall₂_iff.mpr hentries
  exact ⟨⟨es⟩, hes⟩

theorem contains_iff {k : String} : t.contains k ↔ k ∈ t.keys := by
  simp [contains, get?, keys]

end Table

namespace Written

theorem checkTable_eq_ok_iff {α β : Type} {check : String → α → Except RunError β} {t : Table α}
    {t' : Table β} :
    checkTable check t = .ok t' ↔ t.Forall₂ (fun name a b => check name a = .ok b) t' := by
  have hentry : ∀ (e : String × α) (e' : String × β),
      (do return (e.1, ← check e.1 e.2)) = Except.ok (ε := RunError) e' ↔
        e'.1 = e.1 ∧ check e.1 e.2 = .ok e'.2 := by
    rintro ⟨name, a⟩ ⟨name', b⟩
    rw [bind_eq_ok]
    constructor
    · rintro ⟨b', hb', h⟩
      cases h
      exact ⟨rfl, hb'⟩
    · rintro ⟨rfl, hb⟩
      exact ⟨b, hb, rfl⟩
  unfold checkTable Table.Forall₂
  rw [bind_eq_ok]
  simp only [mapM_eq_ok_iff, hentry]
  constructor
  · rintro ⟨es, hes, h⟩
    cases h
    exact hes
  · intro h
    exact ⟨t'.entries, h, rfl⟩

/-! ## Actions -/

/-- What is to be run where exactly one of a command and a builtin is given. -/
inductive Runs : Option String → Option String → Runnable → Prop
  | command {cmd} : Runs (some cmd) none (.command cmd)
  | builtin {name} : Runs none (some name) (.builtin name)

theorem runnable?_eq_some_iff {cmd builtin : Option String} {run : Runnable} :
    runnable? cmd builtin = some run ↔ Runs cmd builtin run := by
  constructor
  · intro h
    cases cmd <;> cases builtin <;> cases h
    · exact .builtin
    · exact .command
  · rintro (_ | _) <;> rfl

/-- A variant says what was written. -/
structure Variant.Reads (w : Variant) (v : StageFlow.Variant) : Prop where
  guard : v.guard = w.guard
  run : Runs w.cmd w.builtin v.run

theorem Variant.checkAll_eq_ok_iff {action : String} {n : Nat} {ws : List Variant}
    {vs : List StageFlow.Variant} :
    checkAll action n ws = .ok vs ↔ List.Forall₂ Variant.Reads ws vs := by
  induction ws generalizing n vs with
  | nil =>
    rw [List.forall₂_nil_left_iff]
    exact ⟨fun h => (Except.ok.inj h).symm, fun h => h ▸ rfl⟩
  | cons w ws ih =>
    rw [List.forall₂_cons_left_iff]
    unfold checkAll
    split
    next hrun =>
      refine ⟨nofun, ?_⟩
      rintro ⟨v, _, hv, -⟩
      cases hrun.symm.trans (runnable?_eq_some_iff.mpr hv.run)
    next run hrun =>
      simp only [bind_eq_ok, ih]
      constructor
      · rintro ⟨vs', hvs', h⟩
        cases h
        exact ⟨_, vs', ⟨rfl, runnable?_eq_some_iff.mp hrun⟩, hvs', rfl⟩
      · rintro ⟨⟨guard, run'⟩, vs', ⟨rfl, hrun'⟩, hvs', rfl⟩
        cases hrun.symm.trans (runnable?_eq_some_iff.mpr hrun')
        exact ⟨vs', hvs', rfl⟩

/-- The shapes of an action. -/
inductive Action.HasShape (w : Action) : ActionKind → Prop
  | run {r} (runs : Runs w.cmd w.builtin r) (noVariant : w.variants = []) : HasShape w (.run r)
  | variants {vs} (noCmd : w.cmd = none) (noBuiltin : w.builtin = none) (some : w.variants ≠ [])
      (reads : List.Forall₂ Variant.Reads w.variants vs) : HasShape w (.variants vs)

theorem Action.shape_eq_ok_iff {name : String} {w : Action} {kind : ActionKind} :
    w.shape name = .ok kind ↔ w.HasShape kind := by
  obtain ⟨cmd, builtin, variants, env, description⟩ := w
  unfold shape
  constructor
  · dsimp only
    split
    next =>
      rintro ⟨⟩
      exact .run .command rfl
    next =>
      rintro ⟨⟩
      exact .run .builtin rfl
    next => exact nofun
    next hne =>
      rw [bind_eq_ok]
      rintro ⟨vs, hvs, h⟩
      cases h
      exact .variants rfl rfl hne (Variant.checkAll_eq_ok_iff.mp hvs)
    next => exact nofun
  · intro h
    cases h with
    | run runs noVariant =>
      cases noVariant
      cases runs <;> rfl
    | variants noCmd noBuiltin some reads =>
      cases noCmd
      cases noBuiltin
      cases variants with
      | nil => exact (some rfl).elim
      | cons v vs =>
        exact bind_eq_ok.mpr ⟨_, Variant.checkAll_eq_ok_iff.mpr reads, rfl⟩

/-- An action says what was written. -/
structure Action.Reads (name : String) (w : Action) (a : StageFlow.Action) : Prop where
  name : a.name = name
  shape : w.HasShape a.kind
  env : a.env = w.env
  description : a.description = w.description

theorem Action.check_eq_ok_iff {name : String} {w : Action} {a : StageFlow.Action} :
    w.check name = .ok a ↔ w.Reads name a := by
  unfold check
  simp only [bind_eq_ok, shape_eq_ok_iff]
  constructor
  · rintro ⟨kind, hkind, h⟩
    cases h
    exact ⟨rfl, hkind, rfl, rfl⟩
  · rintro ⟨rfl, hkind, henv, hdescription⟩
    exact ⟨a.kind, hkind, by rw [← henv, ← hdescription]; rfl⟩

/-! ## Steps -/

/-- A step has an expression or labels for its condition, but not both. -/
def Step.OneCondition (w : Step) : Prop := w.condition = none ∨ w.only = none

/-- A step says what was written. -/
structure Step.Reads (w : Step) (s : StageFlow.Step) : Prop where
  name : s.name = w.effectiveName
  action : s.action = w.action
  requires : s.requires = w.requires
  onError : s.onError = w.onError
  condition : s.condition = (w.condition.map .expr <|> w.only.map .labels)

theorem Step.condition?_eq_ok_iff {stage : String} {w : Step} {c : Option Condition} :
    w.condition? stage = .ok c ↔
      w.OneCondition ∧ c = (w.condition.map .expr <|> w.only.map .labels) := by
  unfold condition? OneCondition
  cases w.condition <;> cases w.only <;> simp [eq_comm]

theorem Step.check_eq_ok_iff {stage : String} {w : Step} {s : StageFlow.Step} :
    w.check stage = .ok s ↔ w.OneCondition ∧ w.Reads s := by
  unfold check
  simp only [bind_eq_ok, condition?_eq_ok_iff]
  constructor
  · rintro ⟨c, ⟨hone, rfl⟩, h⟩
    cases h
    exact ⟨hone, rfl, rfl, rfl, rfl, rfl⟩
  · obtain ⟨name, action, requires, onError, condition⟩ := s
    rintro ⟨hone, rfl, rfl, rfl, rfl, rfl⟩
    exact ⟨_, ⟨hone, rfl⟩, rfl⟩

theorem Step.checkAll_eq_ok_iff {stage : String} {seen : List String} {ws : List Step}
    {ss : List StageFlow.Step} :
    checkAll stage seen ws = .ok ss ↔
      ((∀ w ∈ ws, w.OneCondition) ∧ (ws.map effectiveName).Nodup ∧ ∀ w ∈ ws, w.effectiveName ∉ seen) ∧
        List.Forall₂ Step.Reads ws ss := by
  induction ws generalizing seen ss with
  | nil =>
    rw [List.forall₂_nil_left_iff]
    refine ⟨fun h => ⟨?_, (Except.ok.inj h).symm⟩, fun h => h.2 ▸ rfl⟩
    exact ⟨nofun, List.nodup_nil, nofun⟩
  | cons w ws ih =>
    unfold checkAll
    simp only [bind_eq_ok, check_eq_ok_iff, List.forall_mem_cons, List.map_cons, List.nodup_cons,
      List.forall₂_cons_left_iff]
    constructor
    · rintro ⟨s, ⟨hone, hs⟩, h⟩
      rw [hs.name] at h
      split at h
      next => cases h
      next hseen =>
        obtain ⟨ss, hss, h⟩ := bind_eq_ok.mp h
        obtain ⟨⟨hones, hnodup, hfresh⟩, hreads⟩ := ih.mp hss
        cases h
        -- a later step has neither a name from before nor that of this step
        refine ⟨⟨⟨hone, hones⟩, ⟨?_, hnodup⟩, hseen, ?_⟩, s, ss, hs, hreads, rfl⟩
        · intro hmem
          obtain ⟨u, hu, hname⟩ := List.mem_map.mp hmem
          exact hfresh u hu (hname ▸ List.mem_cons_self)
        · exact fun u hu hmem => hfresh u hu (List.mem_cons_of_mem _ hmem)
    · rintro ⟨⟨⟨hone, hones⟩, ⟨hnew, hnodup⟩, hseen, hfresh⟩, s, ss, hs, hreads, rfl⟩
      refine ⟨s, ⟨hone, hs⟩, ?_⟩
      rw [hs.name, if_neg hseen]
      refine bind_eq_ok.mpr ⟨ss, ih.mpr ⟨⟨hones, hnodup, fun u hu hmem => ?_⟩, hreads⟩, rfl⟩
      rcases List.mem_cons.mp hmem with hname | hmem
      · exact hnew (List.mem_map.mpr ⟨u, hu, hname⟩)
      · exact hfresh u hu hmem

/-! ## Stages and configurations -/

/-- A stage says what was written. -/
structure Stage.Reads (name : String) (w : Stage) (s : StageFlow.Stage) : Prop where
  name : s.name = name
  description : s.description = w.description
  steps : List.Forall₂ Step.Reads w.steps s.steps

/-- A configuration says what was written. -/
structure Config.Reads (w : Config) (c : StageFlow.Config) : Prop where
  options : c.options = w.options
  vars : c.vars = w.vars.map Toml.value
  inputs : c.inputs = w.inputs
  actions : w.actions.Forall₂ Action.Reads c.actions
  stages : w.stages.Forall₂ Stage.Reads c.stages

theorem Stage.check_eq_ok_iff {name : String} {w : Stage} {s : StageFlow.Stage} :
    w.check name = .ok s ↔
      ((∀ t ∈ w.steps, t.OneCondition) ∧ (w.steps.map Step.effectiveName).Nodup) ∧ w.Reads name s := by
  unfold check
  simp only [bind_eq_ok, Step.checkAll_eq_ok_iff]
  constructor
  · rintro ⟨ss, ⟨⟨hone, hnodup, -⟩, hreads⟩, h⟩
    cases h
    exact ⟨⟨hone, hnodup⟩, rfl, rfl, hreads⟩
  · obtain ⟨name', description, ss⟩ := s
    rintro ⟨⟨hone, hnodup⟩, rfl, rfl, hreads⟩
    exact ⟨ss, ⟨⟨hone, hnodup, fun _ _ => List.not_mem_nil⟩, hreads⟩, rfl⟩

end Written
end StageFlow
