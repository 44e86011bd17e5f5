import StageFlow.Proofs.Scheduler.Passages

/-!
# Lives of steps

Each step of a stage lives once, whatever the scheduler is told: it is launched at most once, it ends at
most once, and it never comes back. `Scheduler.perform_progresses` says so of one operation,
`Record.history` keeps the record of a step through a history, and `Scheduler.history_lives` puts both
together.
-/

namespace StageFlow

variable {g : StageGraph}

/-! ## The way of a step -/

theorem Ending.isSome_skip?_iff (e : Ending) : e.skip?.isSome ↔ e.status = .skipped := by
  cases e <;> simp [skip?, status]

/-- A step that ran was not skipped. -/
theorem Outcome.ending_ne_skipped {o : Outcome} {onError : OnError} {r : SkipReason} :
    o.ending onError ≠ .skipped r := by
  cases o with
  | failed => cases onError <;> nofun
  | success | warning | terminated => nofun

namespace RunState

variable {n : Nat}

/-- The next stage in the life of a step. -/
inductive Next : RunState n → RunState n → Prop
  | ready {l} : Next .pending (.ready l)
  | launched {l} : Next (.ready l) .running
  | completed {e} : Next .running (.done e)
  | settled {e} : Next .pending (.done e)
  | dropped {l e} : Next (.ready l) (.done e)

/-- A step in the first state may come to be in the second one. -/
def Onward : RunState n → RunState n → Prop := Relation.ReflTransGen Next

theorem onward_running {st : RunState n} {l : Launch n} (h : st.isWaiting) :
    st.Onward .running := by
  cases st with
  | pending => exact .tail (.single (.ready (l := l))) .launched
  | ready => exact .single .launched
  | running | done => cases h

theorem onward_done {st : RunState n} {e : Ending} (h : st.isWaiting) : st.Onward (.done e) := by
  cases st with
  | pending => exact .single .settled
  | ready => exact .single .dropped
  | running | done => cases h

theorem isDone_of_isWaiting {st : RunState n} (h : st.isWaiting) : st.isDone = false := by
  cases st with
  | pending | ready => rfl
  | running | done => cases h

/-- There is a reason to be skipped just for the steps that are skipped. -/
theorem isSome_skip?_iff {st : RunState n} : st.skip?.isSome ↔ st.status = .skipped := by
  cases st with
  | done e => exact e.isSome_skip?_iff
  | pending | ready | running => simp [skip?, status]

end RunState

/-! ## One operation -/

/-- An operation moves every step on in its life. What it tells of the ends of steps is what it brings
about, and only a report on a running step ends it. -/
structure Scheduler.Progresses (s s' : Scheduler g) (op : Operation) (t : Transition g.size) :
    Prop where
  onward : ∀ i, (s.states.get i).Onward (s'.states.get i)
  done : ∀ i e, s.states.get i = .done e → s'.states.get i = .done e
  completed : ∀ i, s.states.get i = .running → s'.states.get i ≠ .running →
    ∃ o, op = .complete (g.name i) o
  tells : ∀ f ∈ t.finished, f.name = g.name f.index ∧ (s.states.get f.index).isDone = false ∧
    s'.states.get f.index = .done f.ending
  told : ∀ i e, (s.states.get i).isDone = false → s'.states.get i = .done e →
    ∃ f ∈ t.finished, f.index = i ∧ f.ending = e
  launched : ∀ l ∈ t.launched, l.name = g.name l.index ∧ (s.states.get l.index).isWaiting ∧
    s'.states.get l.index = .running

namespace Passage

variable {op : Operation} {i : Fin g.size} {st st' : RunState g.size} {ls : List (Launch g.size)}
  {fs : List (Finished g.size)}

theorem onward (h : Passage op i st st' ls fs) : st.Onward st' := by
  cases h with
  | rests => exact .refl
  | readies => exact .single .ready
  | @launches _ l waiting => exact RunState.onward_running (l := l) waiting
  | settles waiting => exact RunState.onward_done waiting
  | completes => exact .single .completed

theorem done {e : Ending} (h : Passage op i (.done e) st' ls fs) : st' = .done e := by
  cases h with
  | rests => rfl
  | launches waiting | settles waiting => cases waiting

theorem completed (h : Passage op i .running st' ls fs) (hst : st' ≠ .running) :
    ∃ o, op = .complete (g.name i) o := by
  cases h with
  | rests => exact (hst rfl).elim
  | launches => exact (hst rfl).elim
  | settles waiting => cases waiting
  | completes reported => exact ⟨_, reported⟩

theorem tells {f : Finished g.size} (h : Passage op i st st' ls fs) (hf : f ∈ fs) :
    f.name = g.name f.index ∧ st.isDone = false ∧ st' = .done f.ending := by
  cases h with
  | rests | readies | launches => cases hf
  | settles waiting own _ ends =>
    obtain rfl := List.mem_singleton.mp hf
    exact ⟨(Move.of_finished? ends).2.1, RunState.isDone_of_isWaiting waiting, rfl⟩
  | completes =>
    obtain rfl := List.mem_singleton.mp hf
    exact ⟨rfl, rfl, rfl⟩

theorem told {e : Ending} (h : Passage op i st (.done e) ls fs) (hst : st.isDone = false) :
    ∃ f ∈ fs, f.ending = e := by
  cases h with
  | rests => cases hst
  | settles => exact ⟨_, List.mem_singleton_self _, rfl⟩
  | completes => exact ⟨_, List.mem_singleton_self _, rfl⟩

theorem launched {l : Launch g.size} (h : Passage op i st st' ls fs) (hl : l ∈ ls) :
    l.name = g.name l.index ∧ st.isWaiting ∧ st' = .running := by
  cases h with
  | rests | readies | settles | completes => cases hl
  | launches waiting own name =>
    obtain rfl := List.mem_singleton.mp hl
    exact ⟨own ▸ name, waiting, rfl⟩

end Passage

theorem Scheduler.meet_progresses {s : Scheduler g} (hs : s.states.Placed g) (m : Moment Operation) :
    s.Progresses (s.meet m).1 m.event (s.meet m).2 where
  onward i := (meet_passage hs m i).onward
  done i e hi := by
    have h := meet_passage hs m i
    rw [hi] at h
    exact h.done
  completed i hi := by
    have h := meet_passage hs m i
    rw [hi] at h
    exact h.completed
  tells f hf := (meet_passage hs m f.index).tells (List.mem_filter.mpr ⟨hf, by simp⟩)
  told i e hopen hdone := by
    have h := meet_passage hs m i
    rw [hdone] at h
    obtain ⟨f, hf, hending⟩ := h.told hopen
    obtain ⟨hf, hi⟩ := List.mem_filter.mp hf
    exact ⟨f, hf, of_decide_eq_true hi, hending⟩
  launched l hl := (meet_passage hs m l.index).launched (List.mem_filter.mpr ⟨hl, by simp⟩)

/-! ## A whole history -/

/-- What has been launched of a step and what has been told of its end, in a state. -/
inductive Record : RunState g.size → List (Launch g.size) → List (Finished g.size) → Prop
  | waits {st} (waiting : st.isWaiting) : Record st [] []
  | runs {l} : Record .running [l] []
  | ran {l f} (ended : ∀ r, f.ending ≠ .skipped r) : Record (.done f.ending) [l] [f]
  | settled {f} (unlaunched : f.ending ≠ .ok ∧ f.ending ≠ .terminated) :
      Record (.done f.ending) [] [f]

/-- What ends a step before it is launched is neither a success nor a termination. -/
theorem Move.IsEarly.ending {op : Operation} {m : Move g.size} {f : Finished g.size}
    (h : m.IsEarly op) (hf : m.finished? g = some f) : f.ending ≠ .ok ∧ f.ending ≠ .terminated := by
  cases m with
  | ready | launch => cases hf
  | blocked | inapplicable | dropped => cases hf; exact ⟨nofun, nofun⟩
  | invalid i => cases hf; cases (g.step i).onError <;> exact ⟨nofun, nofun⟩
  | completed =>
    rcases h with h | ⟨-, h⟩
    · cases h
    · cases h

namespace Record

variable {op : Operation} {i : Fin g.size} {st st' : RunState g.size}
  {ls ls' : List (Launch g.size)} {fs fs' : List (Finished g.size)}

theorem passage (h : Record st ls fs) (p : Passage op i st st' ls' fs') :
    Record st' (ls ++ ls') (fs ++ fs') := by
  cases p with
  | rests => rwa [List.append_nil, List.append_nil]
  | readies => cases h with | waits => exact .waits rfl
  | launches waiting =>
    cases h with
    | waits => exact .runs
    | runs | ran | settled => cases waiting
  | settles waiting _ early ends =>
    cases h with
    | waits => exact .settled (early.ending ends)
    | runs | ran | settled => cases waiting
  | completes =>
    cases h with
    | waits waiting => cases waiting
    | runs => exact .ran (f := ⟨_, _, _, _⟩) fun _ => Outcome.ending_ne_skipped

/-- A step is launched at most once and ends at most once. -/
theorem length_le (h : Record st ls fs) : ls.length ≤ 1 ∧ fs.length ≤ 1 := by
  cases h <;> simp

theorem finished_eq_nil (h : Record st ls fs) (hst : st.isDone = false) : fs = [] := by
  cases h with
  | waits | runs => rfl
  | ran | settled => cases hst

theorem launched_ne_nil (h : Record st ls fs) (hst : st = .done .ok ∨ st = .done .terminated) :
    ls ≠ [] := by
  cases h with
  | waits waiting => rcases hst with rfl | rfl <;> cases waiting
  | runs | ran => exact List.cons_ne_nil _ _
  | settled unlaunched =>
    rcases hst with hst | hst
    · exact (unlaunched.1 (RunState.done.inj hst)).elim
    · exact (unlaunched.2 (RunState.done.inj hst)).elim

/-- A step that was skipped has never been launched. -/
theorem launched_eq_nil {r : SkipReason} (h : Record st ls fs) (hst : st = .done (.skipped r)) :
    ls = [] := by
  cases h with
  | waits | settled => rfl
  | runs => cases hst
  | ran ended => exact (ended r (RunState.done.inj hst)).elim

/-- The record of a step goes on through a history. -/
theorem history {s : Scheduler g} (hs : s.states.Placed g) (h : Record (s.states.get i) ls fs)
    (ms : List (Moment Operation)) : Record ((s.history ms).1.states.get i)
      (ls ++ ((s.history ms).2.flatMap Transition.launched).filter (·.index = i))
      (fs ++ ((s.history ms).2.flatMap Transition.finished).filter (·.index = i)) := by
  induction ms generalizing s ls fs with
  | nil => simpa using h
  | cons m ms ih =>
    have hrest := ih (Scheduler.meet_placed hs m) (h.passage (Scheduler.meet_passage hs m i))
    simpa using hrest

end Record

/-- Members of a list that are one of a kind, if that holds of each kind. -/
theorem nodup_map_of_filter {α β : Type} [DecidableEq β] {f : α → β} {as : List α}
    (h : ∀ b, (as.filter (f · = b)).length ≤ 1) : (as.map f).Nodup := by
  refine List.nodup_iff_count_le_one.mpr fun b => ?_
  rw [List.count, List.countP_map, List.countP_eq_length_filter]
  exact h b

namespace Scheduler

section
variable (g : StageGraph) (setting : Setting) (maxParallel : Nat) (ms : List (Moment Operation))

theorem history_record (i : Fin g.size) :
    Record (((new g setting maxParallel).history ms).1.states.get i)
      ((((new g setting maxParallel).history ms).2.flatMap Transition.launched).filter (·.index = i))
      ((((new g setting maxParallel).history ms).2.flatMap Transition.finished).filter
        (·.index = i)) := by
  have hrecord : Record ((new g setting maxParallel).states.get i) [] [] :=
    .waits (by rw [new_states_get]; rfl)
  exact hrecord.history (new_placed g setting maxParallel) ms

end

/-- **One life.** Whatever a scheduler is told, and whatever files come and go, every step is launched at
most once and ends at most once. There is a reason to be skipped just for the steps that are skipped,
and a step that ended well or was terminated has been launched. Every further operation moves the
steps on, tells of just the ends that it brings about, and launches only steps of which no end has been
told. -/
theorem history_lives (g : StageGraph) (setting : Setting) (maxParallel : Nat)
    (ms : List (Moment Operation)) :
    ((((new g setting maxParallel).history ms).2.flatMap Transition.launched).map
      Launch.index).Nodup ∧
    ((((new g setting maxParallel).history ms).2.flatMap Transition.finished).map
      Finished.index).Nodup ∧
    (∀ i, (((new g setting maxParallel).history ms).1.states.get i).skip?.isSome ↔
      (((new g setting maxParallel).history ms).1.states.get i).status = .skipped) ∧
    (∀ f ∈ ((new g setting maxParallel).history ms).2.flatMap Transition.finished,
      f.ending.skip?.isSome ↔ f.ending.status = .skipped) ∧
    (∀ i, ((new g setting maxParallel).history ms).1.states.get i = .done .ok ∨
        ((new g setting maxParallel).history ms).1.states.get i = .done .terminated →
      ∃ l ∈ ((new g setting maxParallel).history ms).2.flatMap Transition.launched, l.index = i) ∧
    ∀ m, ((new g setting maxParallel).history ms).1.Progresses
        (((new g setting maxParallel).history ms).1.meet m).1 m.event
        (((new g setting maxParallel).history ms).1.meet m).2 ∧
      ∀ l ∈ (((new g setting maxParallel).history ms).1.meet m).2.launched,
        ∀ f ∈ ((new g setting maxParallel).history ms).2.flatMap Transition.finished ++
          (((new g setting maxParallel).history ms).1.meet m).2.finished, f.index ≠ l.index := by
  have hrecord := history_record g setting maxParallel ms
  have hplaced := history_placed (new_placed g setting maxParallel) ms
  refine ⟨nodup_map_of_filter fun i => ?_, nodup_map_of_filter fun i => ?_,
    fun _ => RunState.isSome_skip?_iff, fun f _ => f.ending.isSome_skip?_iff, fun i hi => ?_, fun m => ?_⟩
  · exact (hrecord i).length_le.1
  · exact (hrecord i).length_le.2
  · obtain ⟨l, hl⟩ := List.exists_mem_of_ne_nil _ ((hrecord i).launched_ne_nil hi)
    obtain ⟨hl, hindex⟩ := List.mem_filter.mp hl
    exact ⟨l, hl, of_decide_eq_true hindex⟩
  · have hprogresses := meet_progresses hplaced m
    refine ⟨hprogresses, fun l hl f hf hindex => ?_⟩
    obtain ⟨-, hwaiting, hrunning⟩ := hprogresses.launched l hl
    rcases List.mem_append.mp hf with hf | hf
    · have hnone := (hrecord l.index).finished_eq_nil (RunState.isDone_of_isWaiting hwaiting)
      have hmem := List.filter_eq_nil_iff.mp hnone f hf
      exact hmem (decide_eq_true hindex)
    · obtain ⟨-, -, hdone⟩ := hprogresses.tells f hf
      rw [hindex, hrunning] at hdone
      cases hdone

/-- A run of `release` in which reports come twice, a second start comes too late, and files come and
go. -/
def releaseRepeats : List (Moment Operation) :=
  [⟨fun _ => false, .start⟩, ⟨fun _ => true, .complete "build" .success⟩, ⟨fun _ => false, .start⟩,
    ⟨fun _ => false, .complete "build" .terminated⟩,
    ⟨fun _ => true, .complete "docs" (.failed (some 1) none)⟩, ⟨fun _ => true, .cancel⟩,
    ⟨fun _ => false, .complete "test" .success⟩, ⟨fun _ => false, .complete "test" .success⟩]

theorem release_lives :
    ((((new release releaseSetting 2).history releaseRepeats).2.flatMap Transition.launched).map
      Launch.index).Nodup ∧
    ((((new release releaseSetting 2).history releaseRepeats).2.flatMap Transition.finished).map
      Finished.index).Nodup ∧
    (((new release releaseSetting 2).history releaseRepeats).2.flatMap Transition.launched).length = 3 ∧
    (((new release releaseSetting 2).history releaseRepeats).2.flatMap Transition.finished).length =
      4 := by
  obtain ⟨hlaunched, hfinished, -⟩ := history_lives release releaseSetting 2 releaseRepeats
  exact ⟨hlaunched, hfinished, by decide +kernel, by decide +kernel⟩

end Scheduler
end StageFlow
