import StageFlow.Proofs.Scheduler.Moves

/-!
# Operations of a scheduler

Runs of a scheduler are sequences of operations in any order. `Scheduler.perform_explained` says what
an operation does: moves that it causes, told by the transition in their order, and then launches.
`Scheduler.run_explained` says the same of a whole run.
-/

namespace StageFlow

variable {g : StageGraph} {setting : Setting}

/-- The move decides about a pending step; neither executor nor user has a part in it. -/
def Move.isDecision {n : Nat} : Move n → Bool
  | .ready _ | .blocked .. | .inapplicable .. | .invalid .. => true
  | .launch _ | .completed .. | .dropped _ => false

namespace States

variable {s s' s'' : States g.size} {ds ds' : List (Decision g.size)} {i : Fin g.size}

/-! ## Decisions -/

/-- Decisions, one after the other, lead from some states to others. -/
def Decided (g : StageGraph) (setting : Setting) (s : States g.size) (ds : List (Decision g.size))
    (s' : States g.size) : Prop :=
  ∃ ms, Moves g setting s ms s' ∧
    ms.filterMap (Move.finished? g) = ds.filterMap Decision.finished? ∧ ∀ m ∈ ms, m.isDecision

theorem Decided.refl : Decided g setting s [] s := ⟨[], .nil, rfl, nofun⟩

theorem Decided.trans (H : Decided g setting s ds s') (H' : Decided g setting s' ds' s'') :
    Decided g setting s (ds ++ ds') s'' := by
  obtain ⟨ms, hms, hf, hd⟩ := H
  obtain ⟨ms', hms', hf', hd'⟩ := H'
  refine ⟨ms ++ ms', hms.trans hms', by simp only [List.filterMap_append, hf, hf'], fun m hm => ?_⟩
  exact (List.mem_append.mp hm).elim (hd m) (hd' m)

theorem Decided.single {m : Move g.size} {d : Decision g.size} (hm : m.Allowed g setting s)
    (hd : m.isDecision) (hi : m.index = d.index) (hs : m.state g = d.state)
    (hf : m.finished? g = d.finished?) : Decided g setting s [d] (s.put d.index d.state) := by
  refine ⟨[m], ?_, by rw [List.filterMap_cons, List.filterMap_cons, hf]; rfl, by simpa using hd⟩
  rw [← hi, ← hs]
  exact .single hm

theorem decide?_decided {d : Decision g.size} (h : s.decide? g setting i = some d) :
    d.index = i ∧ Decided g setting s [d] (s.put i d.state) := by
  suffices H : d.index = i ∧ Decided g setting s [d] (s.put d.index d.state) from ⟨H.1, H.1 ▸ H.2⟩
  unfold decide? at h
  split at h
  next hpending =>
    split at h
    next => cases h
    next r hr =>
      cases h
      exact ⟨rfl, .single (m := .blocked i r) (.blocked hpending (standing_eq_blocked hr))
        rfl rfl rfl rfl⟩
    next hsat =>
      have hsat := standing_eq_satisfied_iff.mp hsat
      simp only [settle, Option.some.injEq] at h
      cases hv : setting.resolve g.stage.name i (g.step i) with
      | run l =>
        obtain rfl : l.index = i := StageGraph.index_of_verdict hv
        rw [hv] at h
        subst h
        exact ⟨rfl, .single (m := .ready l) (.ready hpending hsat hv) rfl rfl rfl rfl⟩
      | skip r =>
        rw [hv] at h
        subst h
        exact ⟨rfl, .single (m := .inapplicable i r) (.inapplicable hpending hsat hv) rfl rfl rfl rfl⟩
      | fail u =>
        rw [hv] at h
        subst h
        exact ⟨rfl, .single (m := .invalid i u) (.invalid hpending hsat hv) rfl rfl rfl rfl⟩
  next => cases h

theorem sweep_decided (setting : Setting) (is : List (Fin g.size)) (s : States g.size) :
    Decided g setting s (sweep g setting is s).1 (sweep g setting is s).2 := by
  induction is generalizing s with
  | nil => exact .refl
  | cons i is ih =>
    unfold sweep
    split
    next => exact ih s
    next d hd => exact (decide?_decided hd).2.trans (ih _)

theorem promoteWithin_decided (setting : Setting) (bound : Nat) (s : States g.size) :
    Decided g setting s (promoteWithin g setting bound s).1 (promoteWithin g setting bound s).2 := by
  induction bound generalizing s with
  | zero => exact .refl
  | succ bound ih =>
    have hsweep := sweep_decided setting (List.finRange g.size) s
    unfold promoteWithin
    split
    next s' hs' => rw [hs'] at hsweep; exact hsweep
    next d ds s' hs' => rw [hs'] at hsweep; exact hsweep.trans (ih s')

/-! ## Launches and cancellation -/

theorem launchReady_moves (is : List (Fin g.size)) (free : Nat) (s : States g.size)
    (hs : s.Placed g) :
    Moves g setting s ((launchReady is free s).1.map .launch) (launchReady is free s).2 := by
  induction is generalizing free s with
  | nil => exact .nil
  | cons i is ih =>
    cases free with
    | zero => exact .nil
    | succ free =>
      unfold launchReady
      split
      next l hl =>
        obtain ⟨rfl, -⟩ := hs i l hl
        have hlaunch : (Move.launch l).Allowed g setting s := .launch hl
        exact (Moves.single hlaunch).trans (ih _ _ (hlaunch.placed hs))
      next => exact ih _ _ hs

/-- Steps that wait can be dropped one after the other. -/
theorem exists_drop_moves (setting : Setting) {is : List (Fin g.size)} (hnodup : is.Nodup)
    (hs : ∀ i ∈ is, (s.get i).isWaiting) :
    ∃ s', Moves g setting s (is.map .dropped) s' ∧
      ∀ i, s'.get i = if i ∈ is then .done (.skipped .cancelled) else s.get i := by
  induction is generalizing s with
  | nil => exact ⟨s, .nil, by simp⟩
  | cons i is ih =>
    obtain ⟨hi, hnodup⟩ := List.nodup_cons.mp hnodup
    have hdrop : (Move.dropped i).Allowed g setting s := .dropped (hs i (by simp))
    obtain ⟨s', hs', hget⟩ := ih (s := (Move.dropped i).after g s) hnodup fun j hj => by
      have hij : i ≠ j := fun hij => hi (hij ▸ hj)
      rw [Move.get_after_of_ne (m := .dropped i) hij]
      exact hs j (List.mem_cons_of_mem _ hj)
    refine ⟨s', (Moves.single hdrop).trans hs', fun j => ?_⟩
    rw [hget j]
    by_cases hj : i = j
    · subst hj
      simp [hi, Move.after, Row.get_put, Move.index, Move.state]
    · simp [Move.after, Row.get_put, Move.index, hj, Ne.symm hj]

theorem cancelWaiting_moves (setting : Setting) (s : States g.size) :
    Moves g setting s (s.waiting.map .dropped) (s.cancelWaiting g.name).2 := by
  obtain ⟨s', hs', hget⟩ := exists_drop_moves setting (s := s)
    (List.Nodup.filter _ (List.nodup_finRange g.size)) fun i hi => (List.mem_filter.mp hi).2
  have heq : s' = (s.cancelWaiting g.name).2 := Row.ext fun i => by
    rw [hget i, cancelWaiting, Row.get_map]
    simp
  exact heq ▸ hs'

end States

/-! ## Operations -/

/-- What a scheduler is told. -/
inductive Operation where
  | start
  | complete (name : String) (o : Outcome)
  | cancel
  deriving DecidableEq

namespace Scheduler

variable {s : Scheduler g}

/-- Carries out an operation. -/
def perform (s : Scheduler g) : Operation → Scheduler g × Transition g.size
  | .start => s.start
  | .complete name o => s.complete name o
  | .cancel => s.cancel

/-- Carries out operations in order. -/
def run (s : Scheduler g) : List Operation → Scheduler g × List (Transition g.size)
  | [] => (s, [])
  | op :: ops =>
    let (s', t) := s.perform op
    let (s'', ts) := run s' ops
    (s'', t :: ts)

/-- The moves that an operation can cause, other than launches. Only a report on a running step
completes it, and only a cancellation drops steps. -/
def Causes (s : Scheduler g) (op : Operation) : Move g.size → Prop
  | .completed i o => op = .complete (g.name i) o ∧ s.states.get i = .running
  | .dropped _ => op = .cancel
  | m => m.isDecision

/-- An operation amounts to moves that it causes, and then to the launches of the transition. -/
structure Explained (s : Scheduler g) (op : Operation) (ms : List (Move g.size)) : Prop where
  moves : Moves g s.setting s.states (ms ++ (s.perform op).2.launched.map .launch)
    (s.perform op).1.states
  finished : (s.perform op).2.finished = ms.filterMap (Move.finished? g)
  causes : ∀ m ∈ ms, s.Causes op m

section
variable (s) (t : Transition g.size)

@[simp] theorem conclude_states : (s.conclude t).1.states = s.states := rfl
@[simp] theorem conclude_completed : (s.conclude t).2.completed = t.completed := rfl
@[simp] theorem conclude_decisions : (s.conclude t).2.decisions = t.decisions := rfl
@[simp] theorem conclude_dropped : (s.conclude t).2.dropped = t.dropped := rfl
@[simp] theorem conclude_launched : (s.conclude t).2.launched = t.launched := rfl

end

theorem causes_of_isDecision {op : Operation} {m : Move g.size} (h : m.isDecision) :
    s.Causes op m := by
  cases m with
  | launch | completed | dropped => cases h
  | _ => exact h

variable (s) in
theorem advance_moves (completed : Option (Finished g.size)) (hs : s.states.Placed g) :
    ∃ ms, Moves g s.setting s.states (ms ++ (s.advance completed).2.launched.map .launch)
        (s.advance completed).1.states ∧
      (s.advance completed).2.finished =
        completed.toList ++ ms.filterMap (Move.finished? g) ∧
      ∀ m ∈ ms, m.isDecision := by
  unfold advance
  split
  · exact ⟨[], .nil, by simp [Transition.finished], nofun⟩
  · obtain ⟨ms, hms, hf, hd⟩ := States.promoteWithin_decided s.setting (g.size + 1) s.states
    refine ⟨ms, hms.trans (States.launchReady_moves _ _ _ (hms.placed hs)), ?_, hd⟩
    rw [hf]
    simp [Transition.finished, States.promote]

theorem perform_complete {i : Fin g.size} (hi : s.states.get i = .running) (o : Outcome) :
    s.perform (.complete (g.name i) o) =
      advance { s with states := (Move.completed i o).after g s.states }
        (some ⟨i, g.name i, o.ending (g.step i).onError, o.message⟩) := by
  simp only [perform, complete, StageGraph.indexOf?_name, hi]
  rfl

theorem perform_explained (hs : s.states.Placed g) (op : Operation) :
    ∃ ms, s.Explained op ms := by
  have unchanged : s.perform op = (s, { }) → ∃ ms, s.Explained op ms := fun h =>
    ⟨[], by rw [h]; exact .nil, by rw [h]; rfl, nofun⟩
  cases op with
  | start =>
    by_cases hstarted : s.started
    · exact unchanged (by simp [perform, start, hstarted])
    · obtain ⟨ms, hms, hf, hd⟩ := advance_moves { s with started := true } none hs
      have heq : s.perform .start = advance { s with started := true } none := by
        simp [perform, start, hstarted]
      refine ⟨ms, ?_, ?_, fun m hm => causes_of_isDecision (hd m hm)⟩
      · rw [heq]; exact hms
      · rw [heq]; exact hf
  | complete name o =>
    cases hi : g.indexOf? name with
    | none => exact unchanged (by simp [perform, complete, hi])
    | some i =>
      obtain rfl := StageGraph.indexOf?_eq_some_iff.mp hi
      by_cases hrunning : s.states.get i = .running
      · have hm : (Move.completed i o).Allowed g s.setting s.states := .completed hrunning
        obtain ⟨ms, hms, hf, hd⟩ := advance_moves
          { s with states := (Move.completed i o).after g s.states }
          (some ⟨i, g.name i, o.ending (g.step i).onError, o.message⟩) (hm.placed hs)
        refine ⟨.completed i o :: ms, ?_, ?_, fun m hm => ?_⟩
        · rw [perform_complete hrunning]; exact (Moves.single hm).trans hms
        · rw [perform_complete hrunning, hf]; rfl
        · rcases List.mem_cons.mp hm with rfl | hm
          · exact ⟨rfl, hrunning⟩
          · exact causes_of_isDecision (hd m hm)
      · exact unchanged (by simp only [perform, complete, hi])
  | cancel =>
    by_cases hcancelled : s.cancelled
    · exact unchanged (by simp [perform, cancel, hcancelled])
    · refine ⟨s.states.waiting.map .dropped, ?_, ?_, ?_⟩
      · simpa [perform, cancel, hcancelled] using s.states.cancelWaiting_moves s.setting
      · simp [perform, cancel, hcancelled, Transition.finished, States.cancelWaiting,
          List.filterMap_map, Function.comp_def, Move.finished?]
      · intro m hm
        obtain ⟨i, -, rfl⟩ := List.mem_map.mp hm
        rfl

/-- A report on a running step ends it. -/
theorem perform_complete_get {i : Fin g.size} (hs : s.states.Placed g)
    (hi : s.states.get i = .running) (o : Outcome) :
    (s.perform (.complete (g.name i) o)).1.states.get i = .done (o.ending (g.step i).onError) := by
  have hm : (Move.completed i o).Allowed g s.setting s.states := .completed hi
  obtain ⟨ms, hms, -⟩ := advance_moves
    { s with states := (Move.completed i o).after g s.states }
    (some ⟨i, g.name i, o.ending (g.step i).onError, o.message⟩) (hm.placed hs)
  rw [perform_complete hi]
  exact hms.done (Move.get_after_self s.states (.completed i o))

/-- What an operation launches was ready in between. -/
theorem Explained.exists_ready {op : Operation} {ms : List (Move g.size)} {l : Launch g.size}
    (h : s.Explained op ms) (hl : l ∈ (s.perform op).2.launched) :
    ∃ pre post s₁, Moves g s.setting s.states pre s₁ ∧ s₁.get l.index = .ready l ∧
      Moves g s.setting ((Move.launch l).after g s₁) post (s.perform op).1.states := by
  have hmem : .launch l ∈ ms ++ (s.perform op).2.launched.map .launch :=
    List.mem_append_right _ (List.mem_map_of_mem hl)
  obtain ⟨pre, post, s₁, hpre, hm, hpost, -⟩ := h.moves.exists_of_mem hmem
  cases hm with
  | launch ready => exact ⟨pre, post, s₁, hpre, ready, hpost⟩

theorem verdict_of_launched {op : Operation} {l : Launch g.size}
    (hs : s.states.Resolved g s.setting) (hl : l ∈ (s.perform op).2.launched) :
    g.verdict s.setting l.index = .run l := by
  obtain ⟨ms, h⟩ := perform_explained hs.placed op
  obtain ⟨pre, post, s₁, hpre, ready, -⟩ := h.exists_ready hl
  exact hpre.resolved hs _ _ ready

/-! ## Runs -/

theorem perform_fixed (s : Scheduler g) (op : Operation) :
    (s.perform op).1.setting = s.setting ∧ (s.perform op).1.maxParallel = s.maxParallel := by
  have hadvance : ∀ (s : Scheduler g) completed,
      (s.advance completed).1.setting = s.setting ∧
        (s.advance completed).1.maxParallel = s.maxParallel := by
    intro s completed
    unfold advance
    split <;> exact ⟨rfl, rfl⟩
  cases op with
  | start => simp only [perform, start]; split <;> simp [hadvance]
  | complete name o =>
    simp only [perform, complete]
    split
    · exact ⟨rfl, rfl⟩
    · split <;> simp [hadvance]
  | cancel => simp only [perform, cancel]; split <;> exact ⟨rfl, rfl⟩

@[simp] theorem perform_setting (s : Scheduler g) (op : Operation) :
    (s.perform op).1.setting = s.setting := (s.perform_fixed op).1

theorem perform_resolved (hs : s.states.Resolved g s.setting) (op : Operation) :
    (s.perform op).1.states.Resolved g (s.perform op).1.setting := by
  obtain ⟨ms, h⟩ := perform_explained hs.placed op
  rw [perform_setting]
  exact h.moves.resolved hs

theorem perform_placed (hs : s.states.Placed g) (op : Operation) :
    (s.perform op).1.states.Placed g := by
  obtain ⟨ms, h⟩ := perform_explained hs op
  exact h.moves.placed hs

@[simp] theorem run_nil (s : Scheduler g) : s.run [] = (s, []) := rfl

@[simp] theorem run_cons (s : Scheduler g) (op : Operation) (ops : List Operation) :
    s.run (op :: ops) =
      (((s.perform op).1.run ops).1, (s.perform op).2 :: ((s.perform op).1.run ops).2) := rfl

theorem run_append (s : Scheduler g) (ops ops' : List Operation) :
    s.run (ops ++ ops') =
      (((s.run ops).1.run ops').1, (s.run ops).2 ++ ((s.run ops).1.run ops').2) := by
  induction ops generalizing s with
  | nil => simp
  | cons op ops ih => simp [ih]

@[simp] theorem run_setting (s : Scheduler g) (ops : List Operation) :
    (s.run ops).1.setting = s.setting := by
  induction ops generalizing s with
  | nil => rfl
  | cons op ops ih => simp [ih]

theorem Explained.launch?_eq_none {op : Operation} {ms : List (Move g.size)}
    (h : s.Explained op ms) : ms.filterMap Move.launch? = [] := by
  rw [List.filterMap_eq_nil_iff]
  intro m hm
  have := h.causes m hm
  cases m with
  | launch => cases this
  | _ => rfl

theorem filterMap_launch {n : Nat} (ls : List (Launch n)) :
    (ls.map Move.launch).filterMap Move.launch? = ls := by
  rw [List.filterMap_map]
  exact List.filterMap_some

/-- A run amounts to moves, told by its transitions. Every move is a launch or caused by one of the
operations, in the state that the operations before it have led to. -/
theorem run_explained (hs : s.states.Resolved g s.setting) (ops : List Operation) :
    ∃ ms, Moves g s.setting s.states ms (s.run ops).1.states ∧
      (s.run ops).2.flatMap Transition.finished = ms.filterMap (Move.finished? g) ∧
      (s.run ops).2.flatMap Transition.launched = ms.filterMap Move.launch? ∧
      ∀ m ∈ ms, m.launch?.isSome ∨
        ∃ pre op post, ops = pre ++ op :: post ∧ (s.run pre).1.Causes op m := by
  induction ops generalizing s with
  | nil => exact ⟨[], .nil, rfl, rfl, nofun⟩
  | cons op ops ih =>
    obtain ⟨ms, h⟩ := perform_explained hs.placed op
    obtain ⟨ms', hms', hf', hl', hc'⟩ := ih (perform_resolved hs op)
    rw [perform_setting] at hms'
    refine ⟨_, h.moves.trans hms', ?_, ?_, fun m hm => ?_⟩
    · simp [h.finished, hf']
    · simp only [run_cons, List.flatMap_cons, hl', List.filterMap_append, h.launch?_eq_none,
        List.nil_append, filterMap_launch]
    · simp only [List.mem_append, List.mem_map] at hm
      rcases hm with (hm | ⟨l, -, rfl⟩) | hm
      · exact .inr ⟨[], op, ops, rfl, h.causes m hm⟩
      · exact .inl rfl
      · refine (hc' m hm).imp_right ?_
        rintro ⟨pre, op', post, rfl, hm⟩
        exact ⟨op :: pre, op', post, rfl, hm⟩

/-! ## The beginning -/

section
variable (g : StageGraph) (setting : Setting) (maxParallel : Nat) (ops : List Operation)

@[simp] theorem new_states_get (i : Fin g.size) :
    (new g setting maxParallel).states.get i = .pending := Vector.getElem_replicate i.isLt

theorem new_resolved : (new g setting maxParallel).states.Resolved g setting := by
  intro i l hl
  rw [new_states_get] at hl
  cases hl

theorem exists_run_moves : ∃ ms, Moves g setting (new g setting maxParallel).states ms
    ((new g setting maxParallel).run ops).1.states :=
  let ⟨ms, hms, _⟩ := run_explained (new_resolved g setting maxParallel) ops
  ⟨ms, hms⟩

theorem run_resolved : ((new g setting maxParallel).run ops).1.states.Resolved g setting :=
  let ⟨_, hms⟩ := exists_run_moves g setting maxParallel ops
  hms.resolved (new_resolved g setting maxParallel)

end

end Scheduler

/-! ## A small stage -/

/-- Four steps over one action; `publish` needs `docs`, whose failures are warnings, and `test`, and
both of these need `build`. -/
def releaseStage : Stage where
  name := "release"
  steps := [{ name := "build", action := "make" },
    { name := "test", action := "make", requires := ["build"] },
    { name := "docs", action := "make", requires := ["build"], onError := .warn },
    { name := "publish", action := "make", requires := ["docs", "test"] }]

/-- `releaseStage`, checked. -/
def release : StageGraph where
  stage := releaseStage
  deps := Row.ofFn releaseStage.requirements
  levels := #v[0, 1, 1, 2]
  names_nodup := by decide
  deps_eq := Row.get_ofFn _
  levels_eq := by decide

/-- The action of `releaseStage`, and nothing else. -/
def releaseSetting : Setting where
  actions := Actions.ofList [{ name := "make", kind := .run (.builtin "announce") }]
  context := .empty
  evaluator := .plain

/-- The first operations of a run of `release`, up to a failure of `docs`. -/
def releaseOpening : List Operation :=
  [.start, .complete "build" .success, .complete "docs" (.failed (some 1) none)]

/-- A whole run of `release` in which one step runs at a time. -/
def releaseScript : List Operation :=
  [.start, .complete "build" .success, .complete "test" .success,
    .complete "docs" (.failed (some 1) none), .complete "publish" .success]

end StageFlow
