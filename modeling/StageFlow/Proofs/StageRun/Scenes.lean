import StageFlow.Proofs.Scheduler.Dispatch
import StageFlow.Proofs.Scheduler.Lives
import StageFlow.Proofs.StageRun.Told

/-!
# Scenes of steps

What an input of a run means for one step: `StageRun.perform_scene` lists everything that can become of
its state and of its result, with what the answer says of the step. It joins the passage of the step in
the scheduler with what the run makes of it.

* `Command.marks`: what commands say of a step.
* `StageRun.Coherent`: scheduler and results are in step, which every input preserves.
-/

namespace StageFlow

variable {g : StageGraph}

/-! ## Signals and commands about a step -/

namespace Signal

/-- The step that a signal reports on. -/
def step? : Signal → Option String
  | .output step _ | .completed step _ _ => some step
  | .cancel => none

/-- The line that a signal brings from a step. -/
def line? (name : String) : Signal → Option Line
  | .output step line => if step = name then some line else none
  | .completed .. | .cancel => none

/-- The signal reports the end of a step. -/
def completes (name : String) : Signal → Bool
  | .completed step _ _ => step = name
  | .output .. | .cancel => false

theorem line?_eq_none {name : String} {s : Signal} (h : s.step? ≠ some name) :
    s.line? name = none := by
  cases s with
  | output step line => exact if_neg fun hstep => h (congrArg some hstep)
  | completed | cancel => rfl

theorem completes_eq_false {name : String} {s : Signal} (h : s.step? ≠ some name) :
    s.completes name = false := by
  cases s with
  | completed step => exact decide_eq_false fun hstep => h (congrArg some hstep)
  | output | cancel => rfl

end Signal

/-- What can be said of a step: something is told of it, or it is handed over to be executed. -/
inductive Mark (n : Nat) where
  | told (e : StepEvent)
  | launched (l : Launch n)

/-- The step that is handed over. -/
def Mark.launch? {n : Nat} : Mark n → Option (Launch n)
  | .told _ => none
  | .launched l => some l

/-- What a command says of a step. -/
def Command.marks {n : Nat} (name : String) : Command n → List (Mark n)
  | .launch ls => (ls.filter (·.name = name)).map .launched
  | .tell e => if e.step = name then [.told e] else []
  | .terminate => []

/-- What an answer says of a step. -/
def Answer.marks {n : Nat} (a : Answer n) (name : String) : List (Mark n) :=
  a.commands.flatMap (Command.marks name)

/-- The steps that a command hands over. -/
def Command.launches {n : Nat} : Command n → List (Launch n)
  | .launch ls => ls
  | .tell _ | .terminate => []

/-- The steps that commands hand over. -/
def launches {n : Nat} (cs : List (Command n)) : List (Launch n) := cs.flatMap Command.launches

section
variable {n : Nat} {name : String}

theorem Command.marks_tell {e : StepEvent} (h : e.step = name) :
    (.tell e : Command n).marks name = [.told e] := if_pos h

theorem Command.marks_tell_of_ne {e : StepEvent} (h : e.step ≠ name) :
    (.tell e : Command n).marks name = [] := if_neg h

theorem Command.marks_tells {α : Type} (f : α → StepEvent) (as : List α) :
    (as.map fun a => (.tell (f a) : Command n)).flatMap (marks name) =
      (as.filter fun a => (f a).step = name).map fun a => .told (f a) := by
  induction as with
  | nil => rfl
  | cons a as ih =>
    by_cases ha : (f a).step = name <;> simp [marks, ha, ih]

theorem Answer.marks_single (c : Command n) (goesOn : Bool) :
    Answer.marks ⟨[c], goesOn⟩ name = c.marks name := List.append_nil _

theorem launches_filter (a : Answer n) (name : String) :
    (launches a.commands).filter (·.name = name) = (a.marks name).filterMap Mark.launch? := by
  rw [launches, Answer.marks]
  induction a.commands with
  | nil => rfl
  | cons c cs ih =>
    rw [List.flatMap_cons, List.filter_append, ih, List.flatMap_cons, List.filterMap_append]
    congr 1
    cases c with
    | launch ls =>
      rw [Command.launches, Command.marks, List.filterMap_map]
      exact List.filterMap_some.symm
    | tell e =>
      rw [Command.launches, Command.marks]
      split <;> rfl
    | terminate => rfl

theorem Answer.tell_mem {a : Answer n} {e : StepEvent} (h : .told e ∈ a.marks name) :
    .tell e ∈ a.commands := by
  obtain ⟨c, hc, he⟩ := List.mem_flatMap.mp h
  cases c with
  | launch ls => simp [Command.marks] at he
  | tell e' =>
    simp only [Command.marks] at he
    split at he
    · obtain rfl : e = e' := by simpa using he
      exact hc
    · cases he
  | terminate => cases he

end

/-! ## The transitions of a scheduler, told -/

/-- A transition names the steps that it is about. -/
structure Transition.Named (g : StageGraph) (t : Transition g.size) : Prop where
  finished : ∀ f ∈ t.finished, f.name = g.name f.index
  launched : ∀ l ∈ t.launched, l.name = g.name l.index

theorem Scheduler.perform_named {s : Scheduler g} (hs : s.states.Placed g) (op : Operation) :
    (s.perform op).2.Named g where
  finished f hf :=
    ((perform_passage hs op f.index).tells (List.mem_filter.mpr ⟨hf, by simp⟩)).1
  launched l hl :=
    ((perform_passage hs op l.index).launched (List.mem_filter.mpr ⟨hl, by simp⟩)).1

/-- Where things carry the names of their places, those of a place are those of its name. -/
theorem filter_name {α : Type} {name : α → String} {index : α → Fin g.size} {as : List α}
    (h : ∀ a ∈ as, name a = g.name (index a)) (i : Fin g.size) :
    as.filter (name · = g.name i) = as.filter (index · = i) := by
  refine List.filter_congr fun a ha => decide_eq_decide.mpr ?_
  rw [h a ha]
  exact g.name_injective.eq_iff

namespace StageRun

variable {r : StageRun g} {s : Scheduler g} {t : Transition g.size}

theorem apply_get (r : StageRun g) (s : Scheduler g) (t : Transition g.size) (i : Fin g.size) :
    (r.apply s t).1.results.get i = (t.launched.filter (·.index = i)).foldl launch
      ((t.finished.filter (·.index = i)).foldl finish (r.results.get i)) := by
  rw [← Row.get_foldl_put Finished.index finish, ← Row.get_foldl_put Launch.index launch]
  rfl

theorem apply_marks (r : StageRun g) (s : Scheduler g) (t : Transition g.size) (name : String) :
    (r.apply s t).2.marks name =
      ((t.finished.filter (·.name = name)).map fun f =>
          .told (.finished f.name ((ended r.results t.finished).get f.index).summary)) ++
        (t.launched.filter (·.name = name)).map (fun l => .told (.started l.name)) ++
        (t.launched.filter (·.name = name)).map .launched := by
  have hlaunch : (if t.launched.isEmpty then [] else [Command.launch t.launched]).flatMap
      (Command.marks name) = (t.launched.filter (·.name = name)).map .launched := by
    cases t.launched with
    | nil => rfl
    | cons l ls => exact List.append_nil _
  simp only [Answer.marks, apply, List.flatMap_append, hlaunch, Command.marks_tells]
  rfl

/-- What is told of a step after a transition goes by the transition of that step. -/
theorem apply_marks_name (ht : t.Named g) (i : Fin g.size) :
    (r.apply s t).2.marks (g.name i) =
      ((t.finished.filter (·.index = i)).map fun _ => .told (.finished (g.name i)
          ((t.finished.filter (·.index = i)).foldl finish (r.results.get i)).summary)) ++
        (t.launched.filter (·.index = i)).map (fun _ => .told (.started (g.name i))) ++
        (t.launched.filter (·.index = i)).map .launched := by
  rw [apply_marks, filter_name ht.finished, filter_name ht.launched]
  congr 2
  · refine List.map_congr_left fun f hf => ?_
    obtain ⟨hmem, hi⟩ := List.mem_filter.mp hf
    obtain rfl : f.index = i := of_decide_eq_true hi
    rw [ht.finished f hmem, ← Row.get_foldl_put Finished.index finish]
    rfl
  · refine List.map_congr_left fun l hl => ?_
    obtain ⟨hmem, hi⟩ := List.mem_filter.mp hl
    obtain rfl : l.index = i := of_decide_eq_true hi
    rw [ht.launched l hmem]

/-! ## Scenes -/

/-- The step that an input reports on. -/
def Input.step? : Input → Option String
  | .start => none
  | .signal s => s.step?

/-- The result of a step with what an input notes about it. -/
def Input.noted (name : String) (r : StepResult) : Input → StepResult
  | .signal (.completed step o duration) => if step = name then note r o duration else r
  | .signal (.output ..) | .signal .cancel | .start => r

theorem Input.noted_of_ne {name : String} {r : StepResult} {inp : Input} (h : inp.step? ≠ some name) :
    inp.noted name r = r := by
  cases inp with
  | start => rfl
  | signal s =>
    cases s with
    | completed step => exact if_neg fun hstep => h (congrArg some hstep)
    | output | cancel => rfl

/-- Only what is reported of a running step is noted. -/
theorem Input.noted_of_not_running {name : String} {r : StepResult} {inp : Input}
    (h : r.status ≠ .running) : inp.noted name r = r := by
  cases inp with
  | start => rfl
  | signal s =>
    cases s with
    | completed step =>
      have hnote : ∀ o d, note r o d = r := fun _ _ => if_neg h
      simp only [noted, hnote, ite_self]
    | output | cancel => rfl

@[simp] theorem launch_output (r : StepResult) (l : Launch g.size) : (launch r l).output = r.output :=
  rfl

@[simp] theorem finish_output (r : StepResult) (f : Finished g.size) :
    (finish r f).output = r.output := rfl

@[simp] theorem note_output (r : StepResult) (o : Outcome) (duration : Duration) :
    (note r o duration).output = r.output := by
  unfold note
  split <;> rfl

@[simp] theorem note_name (r : StepResult) (o : Outcome) (duration : Duration) :
    (note r o duration).name = r.name := by
  unfold note
  split <;> rfl

/-- Scheduler and results of a run are in step. -/
structure Coherent (r : StageRun g) : Prop where
  placed : r.scheduler.states.Placed g
  status : ∀ i, (r.results.get i).status = (r.scheduler.states.get i).status
  name : ∀ i, (r.results.get i).name = g.name i

end StageRun

/-- What an input means for a step: state and result before and after, and what the answer says of the
step. -/
inductive Scene (inp : StageRun.Input) (i : Fin g.size) : RunState g.size → StepResult →
    RunState g.size → StepResult → List (Mark g.size) → Prop
  | rests {st r} (unreported : st = .running → inp.step? ≠ some (g.name i)) : Scene inp i st r st r []
  | readies {r l} : Scene inp i .pending r (.ready l) r []
  | starts {st r} {l : Launch g.size} (waiting : st.isWaiting) (name : l.name = g.name i) :
      Scene inp i st r .running (StageRun.launch r l) [.told (.started (g.name i)), .launched l]
  | settles {st r} {f : Finished g.size} (waiting : st.isWaiting) :
      Scene inp i st r (.done f.ending) (StageRun.finish r f)
        [.told (.finished (g.name i) (StageRun.finish r f).summary)]
  | writes {r line} (written : inp = .signal (.output (g.name i) line)) :
      Scene inp i .running r .running { r with output := r.output ++ [line] }
        [.told (.output (g.name i) line)]
  | ends {r o duration} {f : Finished g.size}
      (reported : inp = .signal (.completed (g.name i) o duration)) :
      Scene inp i .running r (.done f.ending) (StageRun.finish (StageRun.note r o duration) f)
        [.told (.finished (g.name i) (StageRun.finish (StageRun.note r o duration) f).summary)]

namespace Scene

variable {inp : StageRun.Input} {i : Fin g.size} {st st' : RunState g.size} {r r' : StepResult}
  {ms : List (Mark g.size)}

theorem status (h : Scene inp i st r st' r' ms) (hr : r.status = st.status) :
    r'.status = st'.status := by
  cases h with
  | rests | readies | writes => exact hr
  | starts | settles | ends => rfl

theorem name (h : Scene inp i st r st' r' ms) : r'.name = r.name := by
  cases h with
  | rests | readies | starts | settles | writes => rfl
  | ends => exact StageRun.note_name ..

/-- Nothing becomes of a step that is over. -/
theorem of_done {e : Ending} (h : Scene inp i (.done e) r st' r' ms) :
    st' = .done e ∧ r' = r ∧ ms = [] := by
  cases h with
  | rests => exact ⟨rfl, rfl, rfl⟩
  | starts waiting | settles waiting => cases waiting

/-- A line of a running step is kept and told. -/
theorem of_output {line : Line}
    (h : Scene (.signal (.output (g.name i) line)) i .running r st' r' ms) :
    st' = .running ∧ r'.output = r.output ++ [line] ∧ ms = [.told (.output (g.name i) line)] := by
  cases h with
  | rests unreported => exact (unreported rfl rfl).elim
  | starts waiting | settles waiting => cases waiting
  | writes written =>
    obtain ⟨-, rfl⟩ := Signal.output.inj (StageRun.Input.signal.inj written)
    exact ⟨rfl, rfl, rfl⟩
  | ends reported => cases reported

/-- A running step ends when that is reported. -/
theorem of_completed {o : Outcome} {duration : Duration}
    (h : Scene (.signal (.completed (g.name i) o duration)) i .running r st' r' ms) :
    (∃ e, st' = .done e) ∧ r'.output = r.output ∧
      ∃ summary, ms = [.told (.finished (g.name i) summary)] := by
  cases h with
  | rests unreported => exact (unreported rfl rfl).elim
  | starts waiting | settles waiting => cases waiting
  | writes written => cases written
  | ends => exact ⟨⟨_, rfl⟩, StageRun.note_output .., _, rfl⟩

end Scene

namespace StageRun

variable {r : StageRun g}

/-- The scene that a passage of a step gives rise to. -/
theorem scene_of_passage {inp : Input} {op : Operation} {i : Fin g.size} {st st' : RunState g.size}
    {ls : List (Launch g.size)} {fs : List (Finished g.size)} {res : StepResult}
    (hop : inp.operation? = some op) (hres : res.status = st.status)
    (h : Passage op i st st' ls fs) :
    Scene inp i st res st' (ls.foldl launch (fs.foldl finish (inp.noted (g.name i) res)))
      ((fs.map fun _ => .told (.finished (g.name i)
          (fs.foldl finish (inp.noted (g.name i) res)).summary)) ++
        ls.map (fun _ => .told (.started (g.name i))) ++ ls.map .launched) := by
  have hidle : st ≠ .running → inp.noted (g.name i) res = res := fun hst =>
    Input.noted_of_not_running fun hr =>
      hst (RunState.status_eq_running_iff.mp (hres.symm.trans hr))
  have hwaiting : st.isWaiting → inp.noted (g.name i) res = res := fun hst =>
    hidle fun h => by rw [h] at hst; cases hst
  cases h with
  | rests unreported =>
    have hstep : st = .running → inp.step? ≠ some (g.name i) := by
      intro hst hstep
      cases inp with
      | start => cases hstep
      | signal s =>
        cases s with
        | output | cancel => cases hop <;> cases hstep
        | completed step o =>
          obtain rfl : step = g.name i := Option.some.inj hstep
          exact unreported hst o (Option.some.inj hop).symm
    have hnoted : inp.noted (g.name i) res = res := by
      by_cases hst : st = .running
      · exact Input.noted_of_ne (hstep hst)
      · exact hidle hst
    rw [hnoted]
    exact .rests hstep
  | readies =>
    rw [hidle nofun]
    exact .readies
  | launches waiting _ name =>
    rw [hwaiting waiting]
    exact .starts waiting name
  | settles waiting =>
    rw [hwaiting waiting]
    exact .settles waiting
  | @completes o reported =>
    cases inp with
    | start => cases hop; cases reported
    | signal s =>
      cases s with
      | output => cases hop
      | cancel => cases hop; cases reported
      | completed step o' duration =>
        obtain ⟨rfl, rfl⟩ := Operation.complete.inj ((Option.some.inj hop).trans reported)
        have hnoted : Input.noted (g.name i) res (.signal (.completed (g.name i) o' duration)) =
            note res o' duration := if_pos rfl
        rw [hnoted]
        exact .ends (f := ⟨i, g.name i, _, _⟩) rfl

/-- An input that is an operation is carried over to the results, with what it notes. -/
theorem perform_of_operation? {inp : Input} {op : Operation} (r : StageRun g)
    (hop : inp.operation? = some op) : ∃ r₁ : StageRun g,
      (∀ i, r₁.results.get i = inp.noted (g.name i) (r.results.get i)) ∧
      (r.perform inp).1 = (r₁.apply (r.scheduler.perform op).1 (r.scheduler.perform op).2).1 ∧
      ∀ name, (r.perform inp).2.marks name =
        (r₁.apply (r.scheduler.perform op).1 (r.scheduler.perform op).2).2.marks name := by
  cases inp with
  | start =>
    cases hop
    exact ⟨r, fun _ => rfl, rfl, fun _ => rfl⟩
  | signal s =>
    cases s with
    | output => cases hop
    | completed step o duration =>
      cases hop
      refine ⟨{ r with results := _ }, fun i => ?_, rfl, fun _ => rfl⟩
      dsimp only
      split
      next hstep =>
        refine (if_neg fun h => ?_).symm
        rw [h, StageGraph.indexOf?_name] at hstep
        cases hstep
      next j hstep =>
        obtain rfl := StageGraph.indexOf?_eq_some_iff.mp hstep
        rw [Row.get_put, Input.noted]
        by_cases hj : j = i
        · subst hj
          simp only [if_true]
        · rw [if_neg hj, if_neg fun h => hj (g.name_injective h)]
    | cancel =>
      cases hop
      refine ⟨{ r with cancelled := true }, fun _ => rfl, ?_, fun name => ?_⟩
      · simp only [perform, StageRun.step, cancel]
        split <;> rfl
      · simp only [perform, StageRun.step, cancel]
        split
        · exact (List.flatMap_append).trans (List.append_nil _)
        · rfl

/-- A line of a running step is kept; any other line is nothing to anybody. -/
theorem output_scene (hr : r.Coherent) (step : String) (line : Line) (i : Fin g.size) :
    Scene (.signal (.output step line)) i (r.scheduler.states.get i) (r.results.get i)
      ((r.output step line).1.scheduler.states.get i) ((r.output step line).1.results.get i)
      ((r.output step line).2.marks (g.name i)) := by
  have hrunning : ∀ j, (r.results.get j).status = .running ↔ r.scheduler.states.get j = .running := by
    intro j
    rw [hr.status, RunState.status_eq_running_iff]
  simp only [output]
  split
  next hstep =>
    refine .rests fun _ h => ?_
    rw [Option.some.inj h, StageGraph.indexOf?_name] at hstep
    cases hstep
  next j hstep =>
    obtain rfl := StageGraph.indexOf?_eq_some_iff.mp hstep
    split
    next hj =>
      rw [Row.get_put, Answer.marks_single]
      by_cases hi : j = i
      · subst hi
        have hmarks : (.tell (.output (g.name j) line) : Command g.size).marks (g.name j) =
            [.told (.output (g.name j) line)] := Command.marks_tell rfl
        rw [if_pos rfl, (hrunning j).mp hj, hmarks]
        exact .writes rfl
      · have hname : g.name j ≠ g.name i := fun h => hi (g.name_injective h)
        have hmarks : (.tell (.output (g.name j) line) : Command g.size).marks (g.name i) = [] :=
          Command.marks_tell_of_ne hname
        rw [if_neg hi, hmarks]
        exact .rests fun _ h => hname (Option.some.inj h)
    next hj =>
      refine .rests fun hi h => hj ((hrunning j).mpr ?_)
      rwa [g.name_injective (Option.some.inj h)]

/-- What an input means for each step. -/
theorem perform_scene (hr : r.Coherent) (inp : Input) (i : Fin g.size) :
    Scene inp i (r.scheduler.states.get i) (r.results.get i) ((r.perform inp).1.scheduler.states.get i)
      ((r.perform inp).1.results.get i) ((r.perform inp).2.marks (g.name i)) := by
  cases hop : inp.operation? with
  | some op =>
    obtain ⟨r₁, hr₁, hrun, hmarks⟩ := perform_of_operation? r hop
    have hpassage := Scheduler.perform_passage hr.placed op i
    have hnamed := Scheduler.perform_named hr.placed op
    rw [hmarks, hrun, apply_marks_name hnamed, apply_get, hr₁]
    exact scene_of_passage hop (hr.status i) hpassage
  | none =>
    cases inp with
    | start => cases hop
    | signal s =>
      cases s with
      | completed | cancel => cases hop
      | output step line => exact output_scene hr step line i

theorem Coherent.perform (hr : r.Coherent) (inp : Input) : (r.perform inp).1.Coherent where
  placed := by
    rw [perform_scheduler]
    cases inp.operation? with
    | none => exact hr.placed
    | some op => exact Scheduler.perform_placed hr.placed op
  status i := by
    have hscene := perform_scene hr inp i
    exact hscene.status (hr.status i)
  name i := (perform_scene hr inp i).name.trans (hr.name i)

theorem new_coherent (g : StageGraph) (setting : Setting) (maxParallel : Nat) :
    (new g setting maxParallel).Coherent where
  placed := Scheduler.new_placed g setting maxParallel
  status i := by
    simp only [new, Scheduler.new_states_get, Row.get_ofFn]
    rfl
  name i := by simp only [new, Row.get_ofFn]

/-- Nothing is said of a step that the stage does not have. -/
theorem perform_marks_eq_nil (hr : r.Coherent) (inp : Input) {name : String}
    (hname : name ∉ g.stage.names) : (r.perform inp).2.marks name = [] := by
  have hne : ∀ i, g.name i ≠ name := by
    intro i hi
    rw [StageGraph.names_eq] at hname
    exact hname (List.mem_map.mpr ⟨i, List.mem_finRange i, hi⟩)
  cases hop : inp.operation? with
  | some op =>
    obtain ⟨r₁, -, -, hmarks⟩ := perform_of_operation? r hop
    have hnamed := Scheduler.perform_named hr.placed op
    have hfinished : (r.scheduler.perform op).2.finished.filter (·.name = name) = [] := by
      refine List.filter_eq_nil_iff.mpr fun f hf h => hne f.index ?_
      exact (hnamed.finished f hf).symm.trans (of_decide_eq_true h)
    have hlaunched : (r.scheduler.perform op).2.launched.filter (·.name = name) = [] := by
      refine List.filter_eq_nil_iff.mpr fun l hl h => hne l.index ?_
      exact (hnamed.launched l hl).symm.trans (of_decide_eq_true h)
    rw [hmarks, apply_marks, hfinished, hlaunched]
    rfl
  | none =>
    cases inp with
    | start => cases hop
    | signal s =>
      cases s with
      | completed | cancel => cases hop
      | output step line =>
        simp only [perform, StageRun.step, output]
        split
        next => rfl
        next j hstep =>
          obtain rfl := StageGraph.indexOf?_eq_some_iff.mp hstep
          split
          · exact (Answer.marks_single _ _).trans (Command.marks_tell_of_ne (hne j))
          · rfl

/-! ## What is handed over -/

theorem perform_launches (r : StageRun g) (inp : Input) : launches (r.perform inp).2.commands =
    (inp.operation?.map fun op => (r.scheduler.perform op).2.launched).getD [] := by
  have happly : ∀ (r : StageRun g) s t, launches (r.apply s t).2.commands = t.launched := by
    intro r s t
    have hlaunch : launches (if t.launched.isEmpty then [] else [Command.launch t.launched]) =
        t.launched := by
      cases t.launched with
      | nil => rfl
      | cons l ls => exact List.append_nil _
    have htells : ∀ {α : Type} (f : α → StepEvent) (as : List α),
        launches (as.map fun a => (.tell (f a) : Command g.size)) = [] := by
      intro α f as
      rw [launches, List.flatMap_map]
      exact List.flatMap_eq_nil_iff.mpr fun _ _ => rfl
    rw [launches] at hlaunch ⊢
    simp only [apply, List.flatMap_append, hlaunch]
    rw [← launches, ← launches, htells, htells]
    rfl
  cases inp with
  | start => exact happly _ _ _
  | signal s =>
    cases s with
    | output step line =>
      simp only [perform, StageRun.step, output]
      split
      · rfl
      · split <;> rfl
    | completed => exact happly _ _ _
    | cancel =>
      simp only [perform, StageRun.step, cancel]
      split
      · exact (List.flatMap_append).trans ((List.append_nil _).trans (happly _ _ _))
      · exact happly _ _ _

theorem exists_name_of_launches (hr : r.Coherent) (inp : Input) {l : Launch g.size}
    (hl : l ∈ launches (r.perform inp).2.commands) : ∃ i, l.name = g.name i := by
  rw [perform_launches] at hl
  cases hop : inp.operation? with
  | none => rw [hop] at hl; cases hl
  | some op =>
    rw [hop] at hl
    exact ⟨l.index, (Scheduler.perform_named hr.placed op).launched l hl⟩

theorem perform_cancelled (inp : Input) (h : r.scheduler.cancelled ∨ inp = .signal .cancel) :
    (r.perform inp).1.scheduler.cancelled ∧ launches (r.perform inp).2.commands = [] := by
  rw [perform_scheduler, perform_launches]
  cases hop : inp.operation? with
  | none =>
    refine ⟨h.resolve_right ?_, rfl⟩
    rintro rfl
    cases hop
  | some op =>
    refine Scheduler.perform_cancelled (h.imp_right ?_)
    rintro rfl
    exact (Option.some.inj hop).symm

/-! ## Histories of a run -/

theorem Coherent.seeing (hr : r.Coherent) (hasFile : String → Bool) : (r.seeing hasFile).Coherent :=
  ⟨hr.placed, hr.status, hr.name⟩

theorem Coherent.meet (hr : r.Coherent) (m : Moment Input) : (r.meet m).1.Coherent :=
  (hr.seeing m.hasFile).perform m.event

theorem meet_scene (hr : r.Coherent) (m : Moment Input) (i : Fin g.size) :
    Scene m.event i (r.scheduler.states.get i) (r.results.get i)
      ((r.meet m).1.scheduler.states.get i) ((r.meet m).1.results.get i)
      ((r.meet m).2.marks (g.name i)) := perform_scene (hr.seeing m.hasFile) m.event i

end StageRun
end StageFlow
