import StageFlow.Proofs.Scheduler.Passages

/-!
# Dependency safety

A step is decided about when its direct requirements have ended, and it may wait for a slot long after
that. `States.Grounded` is the invariant that carries this to everything that it depends on: a step
that has moved on, other than by being skipped together with its requirements, has its requirements
satisfied. What is launched is therefore launched above a cone of steps that have all ended well.
-/

namespace StageFlow

variable {g : StageGraph} {setting : Setting}

namespace States

/-- Steps that have moved on have their requirements satisfied, unless they were skipped for a reason
that skips dependent steps, too. -/
def Grounded (g : StageGraph) (s : States g.size) : Prop :=
  ∀ i, s.get i ≠ .pending → (∀ r, s.get i = .done (.skipped r) → ¬r.cascades) → s.Satisfied g i

variable {s : States g.size} {i d : Fin g.size}

theorem Grounded.of_ready {l : Launch g.size} (h : s.Grounded g) (hi : s.get i = .ready l) :
    s.Satisfied g i := h i (by rw [hi]; nofun) (by rw [hi]; nofun)

theorem Grounded.of_running (h : s.Grounded g) (hi : s.get i = .running) : s.Satisfied g i :=
  h i (by rw [hi]; nofun) (by rw [hi]; nofun)

/-- Everything below a step with satisfied requirements has ended and blocks nothing. -/
theorem Grounded.of_dependsOn (h : s.Grounded g) (hi : s.Satisfied g i) (hd : g.DependsOn i d) :
    ∃ e, s.get d = .done e ∧ e.blocks? (g.name d) = none := by
  induction hd with
  | single hd => exact hi _ hd
  | @tail d d' _ hd' ih =>
    obtain ⟨e, he, hb⟩ := ih
    refine h d (by rw [he]; nofun) (fun r hr => ?_) d' hd'
    rw [he] at hr
    cases hr
    exact Ending.blocks?_skipped_eq_none_iff.mp hb

end States

theorem Move.Allowed.grounded {s : States g.size} {m : Move g.size} (hm : m.Allowed g setting s)
    (h : s.Grounded g) : (m.after g s).Grounded g := by
  intro i hpending hcascades
  have hdone : ∀ d e, s.get d = .done e → (m.after g s).get d = .done e := fun _ _ => hm.done
  by_cases hi : m.index = i
  · subst hi
    rw [Move.get_after_self] at hcascades
    cases hm with
    | ready _ satisfied => exact satisfied.mono hdone
    | launch ready => exact (h.of_ready ready).mono hdone
    | blocked _ blocked =>
      obtain ⟨d, e, -, -, hb⟩ := blocked
      exact (hcascades _ rfl (Ending.cascades_of_blocks? hb)).elim
    | inapplicable _ satisfied => exact satisfied.mono hdone
    | invalid _ satisfied => exact satisfied.mono hdone
    | completed running => exact (h.of_running running).mono hdone
    | dropped => exact (hcascades _ rfl rfl).elim
  · rw [Move.get_after_of_ne hi] at hpending hcascades
    exact (h i hpending hcascades).mono hdone

theorem Moves.grounded {s s' : States g.size} {ms : List (Move g.size)}
    (H : Moves g setting s ms s') (h : s.Grounded g) : s'.Grounded g :=
  H.invariant (fun _ _ _ hs hm => hm.grounded hs) h

namespace Scheduler

variable {s : Scheduler g} {l : Launch g.size}

/-- What an operation launches has its requirements satisfied after it. -/
theorem satisfied_of_launched (hs : s.states.Resolved g s.setting) (hg : s.states.Grounded g)
    {op : Operation} (hl : l ∈ (s.perform op).2.launched) :
    (s.perform op).1.states.Satisfied g l.index := by
  obtain ⟨ms, h⟩ := perform_explained hs.placed op
  obtain ⟨pre, post, s₁, hpre, ready, hpost⟩ := h.exists_ready hl
  have hm : (Move.launch l).Allowed g s.setting s₁ := .launch ready
  exact ((hpre.grounded hg).of_ready ready).mono fun _ _ he => hpost.done (hm.done he)

theorem history_grounded (g : StageGraph) (setting : Setting) (maxParallel : Nat)
    (ms : List (Moment Operation)) : ((new g setting maxParallel).history ms).1.states.Grounded g :=
  history_invariant (fun _ _ _ hs hm => hm.grounded hs) (new_placed g setting maxParallel)
    (fun i hi => (hi (new_states_get g setting maxParallel i)).elim) ms

theorem run_grounded (g : StageGraph) (setting : Setting) (maxParallel : Nat)
    (ops : List Operation) : ((new g setting maxParallel).run ops).1.states.Grounded g := by
  rw [run_eq_history]
  exact history_grounded g setting maxParallel _

/-- **Dependency safety.** Whatever a run has gone through, at the moment in which a step is launched
everything that it depends on has ended, and ended so that the step may run; its own condition holds;
and the launch is what resolving its action and filling in the templates gives. -/
theorem dependencies_ended_of_launched (g : StageGraph) (setting : Setting) (maxParallel : Nat)
    (ops : List Operation) (op : Operation) (l : Launch g.size)
    (hl : l ∈ (((new g setting maxParallel).run ops).1.perform op).2.launched) :
    (∀ d, g.DependsOn l.index d → ∃ e,
      (((new g setting maxParallel).run ops).1.perform op).1.states.get d = .done e ∧
      e ≠ .error ∧ e ≠ .terminated ∧ e ≠ .skipped .cancelled ∧ ∀ c, e ≠ .skipped (.blocked c)) ∧
    l.Faithful g setting := by
  have hs := run_resolved g setting maxParallel ops
  have hsetting : ((new g setting maxParallel).run ops).1.setting = setting := run_setting ..
  have hresolved : ((new g setting maxParallel).run ops).1.states.Resolved g
      ((new g setting maxParallel).run ops).1.setting := by rw [hsetting]; exact hs
  have hsat := satisfied_of_launched hresolved (run_grounded g setting maxParallel ops) hl
  have hverdict := verdict_of_launched hresolved hl
  rw [hsetting] at hverdict
  have hg := run_grounded g setting maxParallel (ops ++ [op])
  rw [run_append] at hg
  refine ⟨fun d hd => ?_, (StageGraph.faithful_of_verdict hverdict).2⟩
  obtain ⟨e, he, hb⟩ := hg.of_dependsOn hsat hd
  exact ⟨e, he, Ending.blocks?_eq_none_iff.mp hb⟩

theorem build_ended_of_publish_launched :
    ∃ l ∈ (((new release releaseSetting 2).run releaseOpening).1.perform
        (.complete "test" .success)).2.launched,
      l.name = "publish" ∧ release.DependsOn l.index ⟨0, by decide⟩ ∧
      (∃ e, (((new release releaseSetting 2).run releaseOpening).1.perform
          (.complete "test" .success)).1.states.get ⟨0, by decide⟩ = .done e ∧
        e ≠ .error ∧ e ≠ .terminated ∧ e ≠ .skipped .cancelled ∧ ∀ c, e ≠ .skipped (.blocked c)) ∧
      l.Faithful release releaseSetting := by
  obtain ⟨l, hl⟩ := List.exists_mem_of_length_pos
    (show 0 < (((new release releaseSetting 2).run releaseOpening).1.perform
      (.complete "test" .success)).2.launched.length by decide +kernel)
  have hplace : ∀ l ∈ (((new release releaseSetting 2).run releaseOpening).1.perform
      (.complete "test" .success)).2.launched, l.name = "publish" ∧ l.index = ⟨3, by decide⟩ := by
    decide +kernel
  obtain ⟨hname, hindex⟩ := hplace l hl
  have hdocs : release.Requires ⟨3, by decide⟩ ⟨2, by decide⟩ := List.mem_cons_self
  have hbuild : release.Requires ⟨2, by decide⟩ ⟨0, by decide⟩ := List.mem_cons_self
  have hdepends : release.DependsOn l.index ⟨0, by decide⟩ := by
    rw [hindex]
    exact .tail (.single hdocs) hbuild
  obtain ⟨hended, hfaithful⟩ := dependencies_ended_of_launched release releaseSetting 2 releaseOpening
    (.complete "test" .success) l hl
  exact ⟨l, hl, hname, hdepends, hended _ hdepends, hfaithful⟩

end Scheduler
end StageFlow
