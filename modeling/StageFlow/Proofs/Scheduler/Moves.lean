import StageFlow.Proofs.Scheduler.Verdicts

/-!
# Moves of steps

Whatever a scheduler does to the states of its steps is a sequence of *moves*, each of which changes
the state of one step. `Move.Allowed` says when a move can be made and is the only place where that is
said; `Moves` is the relation between the states before and after a sequence of moves.

* `Moves.invariant`: what every allowed move preserves holds after all moves.
* `Moves.life`: the moves of one step in a run follow one of a few patterns, and its state is
  determined by them. A step is decided about, launched and ended at most once each.
-/

namespace StageFlow

/-- A change in the state of one step. -/
inductive Move (n : Nat) where
  /-- The requirements are satisfied, and the step can run. -/
  | ready (l : Launch n)
  /-- The step is handed to the executor. -/
  | launch (l : Launch n)
  /-- A requirement did not succeed. -/
  | blocked (i : Fin n) (r : SkipReason)
  /-- The requirements are satisfied, but the step does not apply. -/
  | inapplicable (i : Fin n) (r : SkipReason)
  /-- The requirements are satisfied, but the step fails before launch. -/
  | invalid (i : Fin n) (u : Unresolved)
  /-- The executor reports the end of the step. -/
  | completed (i : Fin n) (o : Outcome)
  /-- The run is cancelled before the step was launched. -/
  | dropped (i : Fin n)

variable {g : StageGraph} {setting : Setting}

namespace States

variable {s s' : States g.size} {i d : Fin g.size} {r : SkipReason}

/-- Every requirement of a step has ended and leaves the step free to run. -/
def Satisfied (g : StageGraph) (s : States g.size) (i : Fin g.size) : Prop :=
  ∀ d, g.Requires i d → ∃ e, s.get d = .done e ∧ e.blocks? (g.name d) = none

/-- A requirement of a step has ended so that the step is skipped for a reason. -/
def Blocked (g : StageGraph) (s : States g.size) (i : Fin g.size) (r : SkipReason) : Prop :=
  ∃ d e, g.Requires i d ∧ s.get d = .done e ∧ e.blocks? (g.name d) = some r

theorem Satisfied.not_blocked (h : Satisfied g s i) : ¬Blocked g s i r := by
  rintro ⟨d, e, hd, he, hb⟩
  obtain ⟨e', he', hb'⟩ := h d hd
  rw [he] at he'
  cases he'
  simp [hb] at hb'

theorem Satisfied.mono (h : Satisfied g s i) (hs : ∀ d e, s.get d = .done e → s'.get d = .done e) :
    Satisfied g s' i := fun d hd =>
  let ⟨e, he, hb⟩ := h d hd
  ⟨e, hs d e he, hb⟩

theorem Blocked.mono (h : Blocked g s i r) (hs : ∀ d e, s.get d = .done e → s'.get d = .done e) :
    Blocked g s' i r :=
  let ⟨d, e, hd, he, hb⟩ := h
  ⟨d, e, hd, hs d e he, hb⟩

theorem blocks?_eq_some_iff {name : Fin g.size → String} :
    s.blocks? name d = some r ↔ ∃ e, s.get d = .done e ∧ e.blocks? (name d) = some r := by
  unfold blocks?
  cases s.get d <;> simp

theorem blocks?_eq_none_iff {name : Fin g.size → String} :
    s.blocks? name d = none ↔ ∀ e, s.get d = .done e → e.blocks? (name d) = none := by
  unfold blocks?
  cases s.get d <;> simp

theorem standing_eq_blocked (h : s.standing g.name (g.deps.get i) = .blocked r) :
    Blocked g s i r := by
  unfold standing at h
  split at h
  · next r' hr =>
    cases h
    obtain ⟨d, hd, hb⟩ := List.exists_of_findSome?_eq_some hr
    obtain ⟨e, he, hb⟩ := blocks?_eq_some_iff.mp hb
    exact ⟨d, e, StageGraph.mem_deps.mp hd, he, hb⟩
  · split at h <;> cases h

theorem standing_eq_satisfied_iff :
    s.standing g.name (g.deps.get i) = .satisfied ↔ Satisfied g s i := by
  unfold standing
  split
  · next r hr =>
    obtain ⟨d, hd, hb⟩ := List.exists_of_findSome?_eq_some hr
    obtain ⟨e, he, hb⟩ := blocks?_eq_some_iff.mp hb
    exact ⟨nofun, fun h => (h.not_blocked ⟨d, e, StageGraph.mem_deps.mp hd, he, hb⟩).elim⟩
  · next hr =>
    rw [List.findSome?_eq_none_iff] at hr
    split
    · next hall =>
      refine ⟨fun _ d hd => ?_, fun _ => rfl⟩
      have hdone := List.all_eq_true.mp hall d (StageGraph.mem_deps.mpr hd)
      cases he : s.get d with
      | done e => exact ⟨e, rfl, blocks?_eq_none_iff.mp (hr d (StageGraph.mem_deps.mpr hd)) e he⟩
      | pending | ready | running => rw [he] at hdone; cases hdone
    · next hall =>
      refine ⟨nofun, fun h => (hall (List.all_eq_true.mpr fun d hd => ?_)).elim⟩
      obtain ⟨e, he, -⟩ := h d (StageGraph.mem_deps.mp hd)
      rw [he]
      rfl

theorem exists_blocked_iff :
    (∃ r, s.standing g.name (g.deps.get i) = .blocked r) ↔ ∃ r, Blocked g s i r := by
  refine ⟨fun ⟨r, h⟩ => ⟨r, standing_eq_blocked h⟩, fun ⟨r, h⟩ => ?_⟩
  obtain ⟨d, e, hd, he, hb⟩ := h
  unfold standing
  split
  · exact ⟨_, rfl⟩
  · next hr =>
    rw [List.findSome?_eq_none_iff] at hr
    have := blocks?_eq_none_iff.mp (hr d (StageGraph.mem_deps.mpr hd)) e he
    rw [hb] at this
    cases this

end States

namespace Move

variable {s : States g.size} {m : Move g.size}

/-- The step that moves. -/
def index {n : Nat} : Move n → Fin n
  | .ready l | .launch l => l.index
  | .blocked i _ | .inapplicable i _ | .invalid i _ | .completed i _ | .dropped i => i

/-- The end of the step, for a move that ends it. -/
def finished? (g : StageGraph) : Move g.size → Option (Finished g.size)
  | .ready _ | .launch _ => none
  | .blocked i r | .inapplicable i r => some (States.skipped g.name i r)
  | .invalid i u => some ⟨i, g.name i, .failed (g.step i).onError, u.message⟩
  | .completed i o => some ⟨i, g.name i, o.ending (g.step i).onError, o.message⟩
  | .dropped i => some ⟨i, g.name i, .skipped .cancelled, "skipped: run cancelled"⟩

/-- What the executor is given, for a move that launches the step. -/
def launch? {n : Nat} : Move n → Option (Launch n)
  | .launch l => some l
  | _ => none

@[simp] theorem finished?_launch (l : Launch g.size) : (launch l).finished? g = none := rfl

/-- The state of the step after the move. -/
def state (g : StageGraph) : Move g.size → RunState g.size
  | .ready l => .ready l
  | .launch _ => .running
  | .blocked _ r | .inapplicable _ r => .done (.skipped r)
  | .invalid i _ => .done (.failed (g.step i).onError)
  | .completed i o => .done (o.ending (g.step i).onError)
  | .dropped _ => .done (.skipped .cancelled)

/-- The states after a move. -/
def after (g : StageGraph) (s : States g.size) (m : Move g.size) : States g.size :=
  s.put m.index (m.state g)

/-- When a move can be made. -/
inductive Allowed (g : StageGraph) (setting : Setting) (s : States g.size) : Move g.size → Prop
  | ready {l} (pending : s.get l.index = .pending) (satisfied : s.Satisfied g l.index)
      (verdict : g.verdict setting l.index = .run l) : Allowed g setting s (.ready l)
  | launch {l} (ready : s.get l.index = .ready l) : Allowed g setting s (.launch l)
  | blocked {i r} (pending : s.get i = .pending) (blocked : s.Blocked g i r) :
      Allowed g setting s (.blocked i r)
  | inapplicable {i r} (pending : s.get i = .pending) (satisfied : s.Satisfied g i)
      (verdict : g.verdict setting i = .skip r) : Allowed g setting s (.inapplicable i r)
  | invalid {i u} (pending : s.get i = .pending) (satisfied : s.Satisfied g i)
      (verdict : g.verdict setting i = .fail u) : Allowed g setting s (.invalid i u)
  | completed {i o} (running : s.get i = .running) : Allowed g setting s (.completed i o)
  | dropped {i} (waiting : (s.get i).isWaiting) : Allowed g setting s (.dropped i)

@[simp] theorem get_after_self (s : States g.size) (m : Move g.size) :
    (m.after g s).get m.index = m.state g := by simp [after, Row.get_put]

theorem get_after_of_ne {i : Fin g.size} (h : m.index ≠ i) : (m.after g s).get i = s.get i := by
  simp [after, Row.get_put, h]

theorem Allowed.not_done {e : Ending} (h : Allowed g setting s m) : s.get m.index ≠ .done e := by
  intro he
  cases h with
  | ready h | blocked h | inapplicable h | invalid h | completed h => simp [index, h] at he
  | launch h => simp [index, h] at he
  | dropped h => simp only [index] at he; simp [he, RunState.isWaiting] at h

theorem Allowed.done {i : Fin g.size} {e : Ending} (h : Allowed g setting s m)
    (he : s.get i = .done e) : (m.after g s).get i = .done e := by
  rw [get_after_of_ne (fun hi => h.not_done (hi ▸ he)), he]

/-- A move ends its step if and only if it says how the step ended. -/
theorem state_eq_done_iff {e : Ending} :
    m.state g = .done e ↔ ∃ msg, m.finished? g = some ⟨m.index, g.name m.index, e, msg⟩ := by
  cases m <;> simp [state, finished?, index, States.skipped]

theorem index_of_launch? {n : Nat} {m : Move n} {l : Launch n} (h : m.launch? = some l) :
    l.index = m.index := by
  cases m <;> cases h
  rfl

theorem of_finished? {f : Finished g.size} (h : m.finished? g = some f) :
    m.index = f.index ∧ f.name = g.name f.index ∧ m.state g = .done f.ending := by
  cases m with
  | ready | launch => cases h
  | _ => cases h; exact ⟨rfl, rfl, rfl⟩

end Move

/-- A sequence of allowed moves leads from some states to others. -/
inductive Moves (g : StageGraph) (setting : Setting) (s : States g.size) :
    List (Move g.size) → States g.size → Prop
  | nil : Moves g setting s [] s
  | snoc : Moves g setting s ms s' → m.Allowed g setting s' →
      Moves g setting s (ms ++ [m]) (m.after g s')

namespace Moves

variable {s s' s'' : States g.size} {ms ms' : List (Move g.size)} {i : Fin g.size}

theorem single {m : Move g.size} (h : m.Allowed g setting s) : Moves g setting s [m] (m.after g s) :=
  .snoc .nil h

theorem trans (H : Moves g setting s ms s') (H' : Moves g setting s' ms' s'') :
    Moves g setting s (ms ++ ms') s'' := by
  induction H' with
  | nil => rwa [List.append_nil]
  | snoc _ hm ih => rw [← List.append_assoc]; exact .snoc ih hm

/-- The states in which a move of a sequence is made. -/
theorem exists_of_mem {m : Move g.size} (H : Moves g setting s ms s') (hm : m ∈ ms) :
    ∃ pre post s₁, Moves g setting s pre s₁ ∧ m.Allowed g setting s₁ ∧
      Moves g setting (m.after g s₁) post s' ∧ ms = pre ++ m :: post := by
  induction H with
  | nil => cases hm
  | @snoc ms s' m' H hm' ih =>
    rcases List.mem_append.mp hm with hm | hm
    · obtain ⟨pre, post, s₁, hpre, hallowed, hpost, rfl⟩ := ih hm
      exact ⟨pre, post ++ [m'], s₁, hpre, hallowed, hpost.snoc hm', by simp⟩
    · obtain rfl := List.mem_singleton.mp hm
      exact ⟨ms, [], s', H, hm', .nil, rfl⟩

theorem eq_of_nil (H : Moves g setting s [] s') : s' = s := by
  generalize hms : ([] : List (Move g.size)) = ms at H
  cases H with
  | nil => rfl
  | snoc => simp at hms

theorem of_cons {m : Move g.size} (H : Moves g setting s (m :: ms) s') :
    m.Allowed g setting s ∧ Moves g setting (m.after g s) ms s' := by
  generalize hms' : m :: ms = ms' at H
  induction H generalizing ms with
  | nil => cases hms'
  | @snoc ms₁ s₁ m₁ H hm₁ ih =>
    cases ms₁ with
    | nil =>
      obtain rfl := H.eq_of_nil
      cases hms'
      exact ⟨hm₁, .nil⟩
    | cons m' ms₁ =>
      obtain ⟨rfl, rfl⟩ := List.cons.inj hms'
      obtain ⟨hm, H'⟩ := ih rfl
      exact ⟨hm, H'.snoc hm₁⟩

theorem of_append (H : Moves g setting s (ms ++ ms') s') :
    ∃ s₁, Moves g setting s ms s₁ ∧ Moves g setting s₁ ms' s' := by
  induction ms generalizing s with
  | nil => exact ⟨s, .nil, H⟩
  | cons m ms ih =>
    obtain ⟨hm, H⟩ := H.of_cons
    obtain ⟨s₁, H₁, H'⟩ := ih H
    exact ⟨s₁, (single hm).trans H₁, H'⟩

/-- What every allowed move preserves is preserved by all of them. -/
theorem invariant {P : States g.size → Prop} (H : Moves g setting s ms s')
    (step : ∀ s m, m ∈ ms → P s → m.Allowed g setting s → P (m.after g s)) (hs : P s) : P s' := by
  induction H with
  | nil => exact hs
  | snoc _ hm ih =>
    exact step _ _ (by simp) (ih fun s m h => step s m (List.mem_append_left _ h)) hm

/-- A step that is over stays as it is. -/
theorem done {e : Ending} (H : Moves g setting s ms s') (he : s.get i = .done e) :
    s'.get i = .done e :=
  H.invariant (P := fun s => s.get i = .done e) (fun _ _ _ he h => h.done he) he

/-- A step that a move has ended is over. -/
theorem done_of_finished {f : Finished g.size} (H : Moves g setting s ms s')
    (hf : f ∈ ms.filterMap (Move.finished? g)) : s'.get f.index = .done f.ending := by
  obtain ⟨m, hm, hmf⟩ := List.mem_filterMap.mp hf
  obtain ⟨hi, -, hstate⟩ := Move.of_finished? hmf
  obtain ⟨pre, post, s₁, -, -, hpost, -⟩ := H.exists_of_mem hm
  refine hpost.done ?_
  rw [← hi, Move.get_after_self, hstate]

end Moves

/-- A step that has come to run has been launched. -/
theorem Moves.running {s s' : States g.size} {ms : List (Move g.size)} {i : Fin g.size}
    (H : Moves g setting s ms s') (hi : s'.get i = .running) :
    s.get i = .running ∨ ∃ l, .launch l ∈ ms ∧ l.index = i := by
  induction H with
  | nil => exact .inl hi
  | @snoc ms s' m _ hm ih =>
    by_cases hmi : m.index = i
    · subst hmi
      rw [Move.get_after_self] at hi
      cases hm with
      | @launch l => exact .inr ⟨l, by simp, rfl⟩
      | _ => cases hi
    · rw [Move.get_after_of_ne hmi] at hi
      exact (ih hi).imp_right fun ⟨l, hl, hli⟩ => ⟨l, List.mem_append_left _ hl, hli⟩

/-- Steps that are ready hold what they would run. -/
def States.Resolved (g : StageGraph) (setting : Setting) (s : States g.size) : Prop :=
  ∀ i l, s.get i = .ready l → g.verdict setting i = .run l

/-- Ready steps hold launches of their own. This is what remains of `States.Resolved` when the setting
changes in the course of a run. -/
def States.Placed (g : StageGraph) (s : States g.size) : Prop :=
  ∀ i l, s.get i = .ready l → l.index = i ∧ l.name = g.name i

theorem States.Resolved.placed {s : States g.size} (h : s.Resolved g setting) : s.Placed g := by
  intro i l hl
  obtain ⟨rfl, hfaithful⟩ := StageGraph.faithful_of_verdict (h i l hl)
  exact ⟨rfl, hfaithful.name⟩

theorem Move.Allowed.resolved {s : States g.size} {m : Move g.size}
    (hm : m.Allowed g setting s) (h : s.Resolved g setting) : (m.after g s).Resolved g setting := by
  intro i l hl
  by_cases hi : m.index = i
  · subst hi
    rw [Move.get_after_self] at hl
    cases hm with
    | ready _ _ verdict => cases hl; exact verdict
    | _ => cases hl
  · rw [Move.get_after_of_ne hi] at hl
    exact h i l hl

theorem Moves.resolved {s s' : States g.size} {ms : List (Move g.size)}
    (H : Moves g setting s ms s') (h : s.Resolved g setting) : s'.Resolved g setting :=
  H.invariant (fun _ _ _ hs hm => hm.resolved hs) h

theorem Move.Allowed.placed {s : States g.size} {m : Move g.size} (hm : m.Allowed g setting s)
    (h : s.Placed g) : (m.after g s).Placed g := by
  intro i l hl
  by_cases hi : m.index = i
  · subst hi
    rw [Move.get_after_self] at hl
    cases hm with
    | ready _ _ verdict =>
      cases hl
      exact ⟨rfl, (StageGraph.faithful_of_verdict verdict).2.name⟩
    | _ => cases hl
  · rw [Move.get_after_of_ne hi] at hl
    exact h i l hl

theorem Moves.placed {s s' : States g.size} {ms : List (Move g.size)} (H : Moves g setting s ms s')
    (h : s.Placed g) : s'.Placed g :=
  H.invariant (fun _ _ _ hs hm => hm.placed hs) h

/-! ## The life of a step -/

/-- What the moves of a step bring about is what all moves bring about for it. -/
theorem filter_filterMap_index {β : Type} {n : Nat} {f : Move n → Option β} {index : β → Fin n}
    (h : ∀ m b, f m = some b → index b = m.index) (ms : List (Move n)) (i : Fin n) :
    (ms.filterMap f).filter (index · = i) = (ms.filter (·.index = i)).filterMap f := by
  induction ms with
  | nil => rfl
  | cons m ms ih =>
    cases hf : f m with
    | none =>
      rw [List.filterMap_cons_none hf, ih, List.filter_cons]
      split
      · rw [List.filterMap_cons_none hf]
      · rfl
    | some b =>
      rw [List.filterMap_cons_some hf, List.filter_cons, List.filter_cons, h m b hf, ih]
      split
      · rw [List.filterMap_cons_some hf]
      · rfl

/-- The moves of a step that was pending, and the state they lead to. -/
inductive Life (g : StageGraph) (i : Fin g.size) : List (Move g.size) → RunState g.size → Prop
  | pending : Life g i [] .pending
  | ready {l} (hl : l.index = i) : Life g i [.ready l] (.ready l)
  | running {l} (hl : l.index = i) : Life g i [.ready l, .launch l] .running
  | completed {l o} (hl : l.index = i) :
      Life g i [.ready l, .launch l, .completed i o] (.done (o.ending (g.step i).onError))
  | blocked {r} : Life g i [.blocked i r] (.done (.skipped r))
  | inapplicable {r} : Life g i [.inapplicable i r] (.done (.skipped r))
  | invalid {u} : Life g i [.invalid i u] (.done (.failed (g.step i).onError))
  | dropped : Life g i [.dropped i] (.done (.skipped .cancelled))
  | withdrawn {l} (hl : l.index = i) : Life g i [.ready l, .dropped i] (.done (.skipped .cancelled))

theorem Life.snoc {s : States g.size} {i : Fin g.size} {m : Move g.size}
    {history : List (Move g.size)} (life : Life g i history (s.get i))
    (hm : m.Allowed g setting s) (hi : m.index = i) : Life g i (history ++ [m]) (m.state g) := by
  subst hi
  cases hm with
  | ready pending =>
    simp only [Move.index, pending] at life
    cases life
    exact .ready rfl
  | launch ready =>
    simp only [Move.index, ready] at life
    cases life
    exact .running rfl
  | completed running =>
    simp only [Move.index, running] at life
    cases life with | running hl => exact .completed hl
  | @dropped i waiting =>
    cases hs : s.get i with
    | pending =>
      simp only [Move.index, hs] at life
      cases life
      exact .dropped
    | ready =>
      simp only [Move.index, hs] at life
      cases life with | ready hl => exact .withdrawn hl
    | running | done => rw [hs] at waiting; cases waiting
  | blocked pending | inapplicable pending | invalid pending =>
    simp only [Move.index, pending] at life
    cases life
    constructor

/-- A step that was pending has led one of the lives that there are. -/
theorem Moves.life {s s' : States g.size} {ms : List (Move g.size)} {i : Fin g.size}
    (H : Moves g setting s ms s') (hs : s.get i = .pending) :
    Life g i (ms.filter (·.index = i)) (s'.get i) := by
  induction H with
  | nil => rw [hs]; exact .pending
  | @snoc ms s' m _ hm ih =>
    rw [List.filter_append]
    by_cases hi : m.index = i
    · rw [show [m].filter (·.index = i) = [m] by simp [hi]]
      have hlife := ih.snoc hm hi
      rwa [← m.get_after_self, hi] at hlife
    · rw [Move.get_after_of_ne hi]
      simpa [hi] using ih

end StageFlow
