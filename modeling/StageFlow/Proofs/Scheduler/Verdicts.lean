import StageFlow.Proofs.Graph.Requirements
import StageFlow.Scheduler.Basic

/-!
# Verdicts

What resolving a step against the actions and the context can give. A step that would run comes with
its condition met and with its action resolved and filled in (`StageGraph.faithful_of_verdict`); a step
is never skipped for a reason that would skip other steps, too (`StageGraph.not_cascades_of_verdict`).
-/

namespace StageFlow

variable {g : StageGraph} {setting : Setting} {i : Fin g.size}

/-- What a step would do if its requirements succeeded. -/
def StageGraph.verdict (g : StageGraph) (setting : Setting) (i : Fin g.size) : Verdict g.size :=
  setting.resolve g.stage.name i (g.step i)

/-- A launch is what its step asks for: the condition holds, and runnable and environment are those of
the action with their templates filled in. -/
structure Launch.Faithful (g : StageGraph) (setting : Setting) (l : Launch g.size) : Prop where
  stage : l.stage = g.stage.name
  name : l.name = g.name l.index
  action : l.action = (g.step l.index).action
  onError : l.onError = (g.step l.index).onError
  condition : ∀ c, (g.step l.index).condition = some c →
    c.holds setting.evaluator setting.context = .ok true
  filled : ∃ action template,
    setting.actions.get? l.action = some action ∧
    action.resolve setting.evaluator setting.context = .ok (some template) ∧
    template.interpolate setting.evaluator setting.context = .ok l.run ∧
    List.Forall₂ (fun t v => v.1 = t.1 ∧
      Template.interpolate setting.evaluator setting.context t.2 = .ok v.2)
      action.env.entries l.env.entries

namespace Setting

theorem fillEnv_eq_ok {es vs : List (String × String)} (h : setting.fillEnv es = .ok vs) :
    List.Forall₂ (fun t v => v.1 = t.1 ∧
      Template.interpolate setting.evaluator setting.context t.2 = .ok v.2) es vs := by
  induction es generalizing vs with
  | nil => cases h; exact .nil
  | cons e es ih =>
    obtain ⟨k, template⟩ := e
    unfold fillEnv at h
    split at h
    next => cases h
    next v hv =>
      cases hes : setting.fillEnv es with
      | error => rw [hes] at h; cases h
      | ok vs' =>
        rw [hes] at h
        cases h
        exact .cons ⟨rfl, hv⟩ (ih hes)

theorem resolveAction_eq_run {n : Nat} {stage : String} {i : Fin n} {step : Step} {l : Launch n}
    (h : setting.resolveAction stage i step = .run l) : ∃ action template env,
      setting.actions.get? step.action = some action ∧
      action.resolve setting.evaluator setting.context = .ok (some template) ∧
      template.interpolate setting.evaluator setting.context = .ok l.run ∧
      setting.fillEnv action.env.entries = .ok env ∧
      l = ⟨stage, i, step.name, step.action, l.run, ⟨env⟩, step.onError⟩ := by
  unfold resolveAction at h
  repeat' split at h
  all_goals cases h
  next action ha _ template ht _ run hr _ env he =>
    exact ⟨action, template, env, ha, ht, hr, he, rfl⟩

theorem resolve_eq_run {n : Nat} {stage : String} {i : Fin n} {step : Step} {l : Launch n}
    (h : setting.resolve stage i step = .run l) : setting.resolveAction stage i step = .run l ∧
      ∀ c, step.condition = some c → c.holds setting.evaluator setting.context = .ok true := by
  cases hc : step.condition with
  | none =>
    simp only [resolve, hc] at h
    exact ⟨h, nofun⟩
  | some c =>
    simp only [resolve, hc] at h
    cases hb : c.holds setting.evaluator setting.context with
    | error => rw [hb] at h; cases h
    | ok b =>
      cases b with
      | false => rw [hb] at h; cases h
      | true =>
        rw [hb] at h
        exact ⟨h, fun _ hc' => by cases hc'; exact hb⟩

theorem not_cascades_of_resolve {n : Nat} {stage : String} {i : Fin n} {step : Step}
    {r : SkipReason} (h : setting.resolve stage i step = .skip r) : ¬r.cascades := by
  unfold resolve resolveAction at h
  repeat' split at h
  all_goals cases h
  all_goals nofun

end Setting

namespace StageGraph

/-- A step that would run is launched as what it asks for. -/
theorem faithful_of_verdict {l : Launch g.size} (h : g.verdict setting i = .run l) :
    l.index = i ∧ l.Faithful g setting := by
  obtain ⟨hact, hcond⟩ := Setting.resolve_eq_run h
  obtain ⟨action, template, env, ha, ht, hr, he, hl⟩ := Setting.resolveAction_eq_run hact
  obtain rfl : l.index = i := by rw [hl]
  refine ⟨rfl, ⟨by rw [hl], by rw [hl]; rfl, by rw [hl], by rw [hl], hcond, ?_⟩⟩
  refine ⟨action, template, by rw [hl]; exact ha, ht, hr, ?_⟩
  rw [hl]
  exact Setting.fillEnv_eq_ok he

theorem index_of_verdict {l : Launch g.size} (h : g.verdict setting i = .run l) : l.index = i :=
  (faithful_of_verdict h).1

/-- What makes a step inapplicable does not concern the steps that require it. -/
theorem not_cascades_of_verdict {r : SkipReason} (h : g.verdict setting i = .skip r) :
    ¬r.cascades := Setting.not_cascades_of_resolve h

end StageGraph

/-! ## Endings that block -/

namespace Ending

variable {e : Ending} {name : String} {r : SkipReason}

theorem cascades_of_blocks? (h : e.blocks? name = some r) : r.cascades := by
  cases e with
  | ok | warn => cases h
  | error | terminated => cases h; rfl
  | skipped r' =>
    simp only [blocks?, Option.ite_none_right_eq_some, Option.some.injEq] at h
    exact h.2 ▸ h.1

/-- The endings that leave dependent steps free to run. -/
theorem blocks?_eq_none_iff : e.blocks? name = none ↔
    e ≠ .error ∧ e ≠ .terminated ∧ e ≠ .skipped .cancelled ∧ ∀ c, e ≠ .skipped (.blocked c) := by
  cases e with
  | skipped r => cases r <;> simp [blocks?, SkipReason.cascades]
  | _ => simp [blocks?]

theorem blocks?_skipped_eq_none_iff : (skipped r).blocks? name = none ↔ ¬r.cascades := by
  simp [blocks?]

end Ending
end StageFlow
