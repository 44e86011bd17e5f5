import StageFlow.Proofs.Scheduler.Dependencies
import StageFlow.Proofs.Scheduler.Lives
import StageFlow.Proofs.Scheduler.Progress

/-!
# Failure cascades

A failure skips everything that depends on the failed step in the very operation that reports it, in
whatever order the steps are declared, and every step that is skipped as blocked names the failed step
at the root of it.

* `Scheduler.Steady.skipped_of_blocks`: a requirement that ended badly has taken the step with it.
* `States.Traced.exists_culprit`: from a blocked step a chain of blocked steps leads to its culprit.
-/

namespace StageFlow

variable {g : StageGraph} {setting : Setting}

/-! ## Endings and states -/

namespace Ending

variable {e : Ending} {name c : String} {r : SkipReason}

/-- A step that blocks others in the name of a culprit has failed itself, or is blocked by it. -/
theorem of_blocks?_eq_blocked (h : e.blocks? name = some (.blocked c)) :
    e = .error ∧ name = c ∨ e = .skipped (.blocked c) := by
  cases e with
  | ok | warn | terminated => cases h
  | error => cases h; exact .inl ⟨rfl, rfl⟩
  | skipped r =>
    simp only [blocks?, Option.ite_none_right_eq_some, Option.some.injEq] at h
    exact .inr (by rw [h.2])

theorem blocks?_skipped (h : r.cascades) : (skipped r).blocks? name = some r := if_pos h

/-- A failure that counts as a warning is none. -/
theorem eq_stop_of_failed {onError : OnError} (h : failed onError = .error) : onError = .stop := by
  cases onError with
  | stop => rfl
  | warn => cases h

end Ending

theorem Outcome.eq_stop_of_ending {o : Outcome} {onError : OnError} (h : o.ending onError = .error) :
    onError = .stop := by
  cases o with
  | failed => exact Ending.eq_stop_of_failed h
  | success | warning | terminated => cases h

/-- The states that a status or a reason to be skipped gives away. -/
theorem RunState.eq_error {n : Nat} {st : RunState n} (h : st.status = .error) :
    st = .done .error := by
  cases st with
  | done e =>
    cases e with
    | error => rfl
    | ok | warn | terminated | skipped => cases h
  | pending | ready | running => cases h

theorem RunState.eq_skipped {n : Nat} {st : RunState n} {r : SkipReason} (h : st.skip? = some r) :
    st = .done (.skipped r) := by
  cases st with
  | done e =>
    cases e with
    | skipped => cases h; rfl
    | ok | warn | error | terminated => cases h
  | pending | ready | running => cases h

theorem SkipReason.cascades_iff {r : SkipReason} :
    r.cascades ↔ r = .cancelled ∨ ∃ c, r = .blocked c := by
  cases r <;> simp [cascades]

/-! ## Blocked steps and their culprits -/

namespace States

variable {s : States g.size} {i d : Fin g.size} {c : String}

/-- A step is skipped since a step of the given name has failed. -/
def BlockedBy (s : States g.size) (i : Fin g.size) (c : String) : Prop :=
  s.get i = .done (.skipped (.blocked c))

/-- Whatever a blocked step names, a requirement of it has that name and has failed, or is blocked and
names the same. -/
def Traced (g : StageGraph) (s : States g.size) : Prop :=
  ∀ i c, s.BlockedBy i c →
    ∃ d, g.Requires i d ∧ (s.get d = .done .error ∧ g.name d = c ∨ s.BlockedBy d c)

/-- Only steps whose failures do not count as warnings have failed. -/
def Stopping (g : StageGraph) (s : States g.size) : Prop :=
  ∀ d, s.get d = .done .error → (g.step d).onError = .stop

/-- From a blocked step requirements lead to its culprit over steps that are blocked by it, too. -/
theorem Traced.exists_culprit (h : s.Traced g) (hi : s.BlockedBy i c) :
    ∃ d between, g.name d = c ∧ s.get d = .done .error ∧
      (i :: between ++ [d]).IsChain g.Requires ∧ ∀ j ∈ between, s.BlockedBy j c := by
  induction i using StageGraph.requires_induction with | step i ih
  obtain ⟨d, hd, ⟨herror, hname⟩ | hblocked⟩ := h i c hi
  · exact ⟨d, [], hname, herror, by simpa using hd, nofun⟩
  · obtain ⟨culprit, between, hname, herror, hchain, hbetween⟩ := ih d hd hblocked
    refine ⟨culprit, d :: between, hname, herror, .cons_cons hd hchain, ?_⟩
    exact List.forall_mem_cons.mpr ⟨hblocked, hbetween⟩

end States

namespace Move.Allowed

variable {s : States g.size} {m : Move g.size}

/-- A move that skips a step for a reason which is passed on finds it blocked, or drops it. -/
theorem of_skipped {r : SkipReason} (hm : m.Allowed g setting s) (hr : r.cascades)
    (h : m.state g = .done (.skipped r)) :
    s.Blocked g m.index r ∨ m = .dropped m.index ∧ r = .cancelled := by
  cases hm with
  | ready | launch => cases h
  | blocked _ blocked =>
    cases h
    exact .inl blocked
  | inapplicable _ _ verdict =>
    cases h
    exact (StageGraph.not_cascades_of_verdict verdict hr).elim
  | @invalid i =>
    simp only [state] at h
    cases honError : (g.step i).onError <;> rw [honError] at h <;> cases h
  | completed => exact (Outcome.ending_ne_skipped (RunState.done.inj h)).elim
  | dropped =>
    cases h
    exact .inr ⟨rfl, rfl⟩

theorem traced (hm : m.Allowed g setting s) (h : s.Traced g) : (m.after g s).Traced g := by
  have hdone : ∀ d e, s.get d = .done e → (m.after g s).get d = .done e := fun _ _ => hm.done
  intro i c hi
  rw [States.BlockedBy] at hi
  by_cases hmi : m.index = i
  · subst hmi
    rw [get_after_self] at hi
    rcases hm.of_skipped rfl hi with ⟨d, e, hd, he, hb⟩ | ⟨-, hr⟩
    · refine ⟨d, hd, ?_⟩
      rcases Ending.of_blocks?_eq_blocked hb with ⟨rfl, hname⟩ | rfl
      · exact .inl ⟨hdone d _ he, hname⟩
      · exact .inr (hdone d _ he)
    · cases hr
  · rw [get_after_of_ne hmi] at hi
    obtain ⟨d, hd, hculprit⟩ := h i c hi
    exact ⟨d, hd, hculprit.imp (And.imp_left (hdone d _)) (hdone d _)⟩

theorem stopping (hm : m.Allowed g setting s) (h : s.Stopping g) : (m.after g s).Stopping g := by
  intro d hd
  by_cases hmd : m.index = d
  · subst hmd
    rw [get_after_self] at hd
    cases hm with
    | ready | launch | blocked | inapplicable | dropped => cases hd
    | invalid => exact Ending.eq_stop_of_failed (RunState.done.inj hd)
    | completed => exact Outcome.eq_stop_of_ending (RunState.done.inj hd)
  · rw [get_after_of_ne hmd] at hd
    exact h d hd

end Move.Allowed

namespace Scheduler

variable {s : Scheduler g} {i d : Fin g.size}

/-- A requirement that ended badly has taken the step with it. -/
theorem Steady.skipped_of_blocks {e : Ending} {r : SkipReason} (h : s.Steady)
    (hg : s.states.Grounded g) (hd : g.Requires i d) (he : s.states.get d = .done e)
    (hb : e.blocks? (g.name d) = some r) :
    ∃ r, s.states.get i = .done (.skipped r) ∧ r.cascades := by
  have hblocked : s.states.Blocked g i r := ⟨d, e, hd, he, hb⟩
  by_contra hi
  -- a step that has moved on without being skipped has its requirements satisfied
  by_cases hpending : s.states.get i = .pending
  · cases hc : s.cancelled with
    | true =>
      have hwaiting := h.dropped hc i
      rw [hpending] at hwaiting
      cases hwaiting
    | false => exact (h.quiet hc i hpending).2 r hblocked
  · exact (hg i hpending fun r hr hcascades => hi ⟨r, hr, hcascades⟩).not_blocked hblocked

/-- A failure has taken everything that depends on the failed step with it. -/
theorem Steady.skipped_of_dependsOn (h : s.Steady) (hg : s.states.Grounded g)
    (hd : g.DependsOn i d) (he : s.states.get d = .done .error) :
    ∃ r, s.states.get i = .done (.skipped r) ∧ r.cascades := by
  induction hd using Relation.TransGen.head_induction_on with
  | single hd => exact h.skipped_of_blocks hg hd he rfl
  | head hd _ ih =>
    obtain ⟨r, hr, hcascades⟩ := ih
    exact h.skipped_of_blocks hg hd hr (Ending.blocks?_skipped hcascades)

section
variable (g : StageGraph) (setting : Setting) (maxParallel : Nat) (ms : List (Moment Operation))

/-- Until the run has begun no step has ended, so all that is said of steps that have holds. -/
theorem steady_of_done {d : Fin g.size} {e : Ending}
    (hd : ((new g setting maxParallel).history ms).1.states.get d = .done e) :
    ((new g setting maxParallel).history ms).1.Steady := by
  refine ((new_fresh g setting maxParallel).history ms).resolve_right fun ⟨_, hfresh⟩ => ?_
  rw [hfresh.pending] at hd
  cases hd

theorem history_traced : ((new g setting maxParallel).history ms).1.states.Traced g := by
  refine history_invariant (fun _ _ _ hs hm => hm.traced hs)
    (new_placed g setting maxParallel) (fun i c hi => ?_) ms
  rw [States.BlockedBy, new_states_get] at hi
  cases hi

theorem history_stopping : ((new g setting maxParallel).history ms).1.states.Stopping g := by
  refine history_invariant (fun _ _ _ hs hm => hm.stopping hs)
    (new_placed g setting maxParallel) (fun d hd => ?_) ms
  rw [new_states_get] at hd
  cases hd

theorem not_launched_of_skipped {i : Fin g.size} {r : SkipReason}
    (hi : ((new g setting maxParallel).history ms).1.states.get i = .done (.skipped r)) :
    ∀ l ∈ ((new g setting maxParallel).history ms).2.flatMap Transition.launched, l.index ≠ i := by
  have hnone := (history_record g setting maxParallel ms i).launched_eq_nil hi
  simpa only [List.filter_eq_nil_iff, decide_eq_true_eq] using hnone

end

/-- **Failure cascade.** Whatever a run has gone through, and whatever files come and go, everything that
depends on a failed step is skipped, since it is blocked or the run was cancelled, and has never been
launched. A step that is skipped as blocked names a step that has failed and whose failures do not count
as warnings, and requirements lead there over steps that are blocked in the same name. -/
theorem history_cascade (g : StageGraph) (setting : Setting) (maxParallel : Nat)
    (ms : List (Moment Operation)) :
    (∀ i d, g.DependsOn i d →
      ((new g setting maxParallel).history ms).1.states.get d = .done .error →
      (((new g setting maxParallel).history ms).1.states.get i = .done (.skipped .cancelled) ∨
        ∃ c, ((new g setting maxParallel).history ms).1.states.get i =
          .done (.skipped (.blocked c))) ∧
      ∀ l ∈ ((new g setting maxParallel).history ms).2.flatMap Transition.launched, l.index ≠ i) ∧
    ∀ i c, ((new g setting maxParallel).history ms).1.states.get i = .done (.skipped (.blocked c)) →
      ∃ d between, g.name d = c ∧
        ((new g setting maxParallel).history ms).1.states.get d = .done .error ∧
        (g.step d).onError = .stop ∧
        (i :: between ++ [d]).IsChain g.Requires ∧
        ∀ j ∈ between, ((new g setting maxParallel).history ms).1.states.get j =
          .done (.skipped (.blocked c)) := by
  refine ⟨fun i d hd herror => ?_, fun i c hi => ?_⟩
  · have hsteady := steady_of_done g setting maxParallel ms herror
    obtain ⟨r, hi, hcascades⟩ :=
      hsteady.skipped_of_dependsOn (history_grounded g setting maxParallel ms) hd herror
    refine ⟨?_, not_launched_of_skipped g setting maxParallel ms hi⟩
    rcases SkipReason.cascades_iff.mp hcascades with rfl | ⟨c, rfl⟩
    · exact .inl hi
    · exact .inr ⟨c, hi⟩
  · obtain ⟨d, between, hname, herror, hchain, hbetween⟩ :=
      (history_traced g setting maxParallel ms).exists_culprit hi
    exact ⟨d, between, hname, herror, history_stopping g setting maxParallel ms d herror, hchain,
      hbetween⟩

/-- The second step is run, since its file is there by then, and fails. -/
def signingFailure : List (Moment Operation) := signingScript (.failed (some 1) none)

theorem signing_cascade :
    signing.DependsOn ⟨1, by decide⟩ ⟨3, by decide⟩ ∧
    ((new signing releaseSetting 2).history signingFailure).1.states.get ⟨3, by decide⟩ =
      .done .error ∧
    (∀ l ∈ ((new signing releaseSetting 2).history signingFailure).2.flatMap Transition.launched,
      l.index ≠ ⟨1, by decide⟩) ∧
    ((new signing releaseSetting 2).history signingFailure).1.states.get ⟨1, by decide⟩ =
      .done (.skipped (.blocked "sign")) ∧
    ∃ d between, signing.name d = "sign" ∧
      ((new signing releaseSetting 2).history signingFailure).1.states.get d = .done .error ∧
      (signing.step d).onError = .stop ∧
      ((⟨1, by decide⟩ : Fin signing.size) :: between ++ [d]).IsChain signing.Requires ∧
      ∀ j ∈ between, ((new signing releaseSetting 2).history signingFailure).1.states.get j =
        .done (.skipped (.blocked "sign")) := by
  obtain ⟨hdependents, hblocked⟩ := history_cascade signing releaseSetting 2 signingFailure
  have hship : signing.Requires ⟨1, by decide⟩ ⟨2, by decide⟩ := List.mem_cons_self
  have hsign : signing.Requires ⟨2, by decide⟩ ⟨3, by decide⟩ := List.mem_cons_self
  have hdepends : signing.DependsOn ⟨1, by decide⟩ ⟨3, by decide⟩ := .tail (.single hship) hsign
  have herror : ((new signing releaseSetting 2).history signingFailure).1.states.get ⟨3, by decide⟩ =
      .done .error := RunState.eq_error (by decide +kernel)
  have hskipped : ((new signing releaseSetting 2).history signingFailure).1.states.get
      ⟨1, by decide⟩ = .done (.skipped (.blocked "sign")) := RunState.eq_skipped (by decide +kernel)
  exact ⟨hdepends, herror, (hdependents _ _ hdepends herror).2, hskipped, hblocked _ _ hskipped⟩

end Scheduler
end StageFlow
