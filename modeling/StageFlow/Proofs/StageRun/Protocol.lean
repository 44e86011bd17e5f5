import StageFlow.Proofs.StageRun.Scenes

/-!
# The protocol of a run

What a run says of a step, whatever it is told: nothing, or that the step has ended, or that it starts,
that it is to be launched, the lines that come in while it runs, and at last that it has ended.
`StageRun.history_protocol` says so of every history.
-/

namespace StageFlow

variable {g : StageGraph}

namespace StageRun

/-! ## Lines -/

/-- The line that an input brings from a step. -/
def Input.line? (name : String) : Input → Option Line
  | .start => none
  | .signal s => s.line? name

/-- The input reports the end of a step. -/
def Input.completes (name : String) : Input → Bool
  | .start => false
  | .signal s => s.completes name

/-- The lines of a step before the first report of its end. -/
def heard (name : String) (inps : List Input) : List Line :=
  (inps.takeWhile fun inp => !inp.completes name).filterMap (Input.line? name)

section
variable {name : String} (inps : List Input)

theorem heard_cons_of_ne {inp : Input} (h : inp.step? ≠ some name) :
    heard name (inp :: inps) = heard name inps := by
  have hline : inp.line? name = none ∧ inp.completes name = false := by
    cases inp with
    | start => exact ⟨rfl, rfl⟩
    | signal s => exact ⟨Signal.line?_eq_none h, Signal.completes_eq_false h⟩
  rw [heard, List.takeWhile_cons_of_pos (by simp [hline.2]), List.filterMap_cons_none hline.1]
  rfl

theorem heard_cons_output (line : Line) :
    heard name (.signal (.output name line) :: inps) = line :: heard name inps := by
  have hline : Input.line? name (.signal (.output name line)) = some line := if_pos rfl
  rw [heard, List.takeWhile_cons_of_pos rfl, List.filterMap_cons_some hline]
  rfl

theorem heard_cons_completed (o : Outcome) (duration : Duration) :
    heard name (.signal (.completed name o duration) :: inps) = [] := by
  rw [heard, List.takeWhile_cons_of_neg (by simp [Input.completes, Signal.completes])]
  rfl

end

/-! ## What is said of a step -/

variable {r : StageRun g} {i : Fin g.size}

@[simp] theorem history_cons (r : StageRun g) (m : Moment Input) (ms : List (Moment Input)) :
    r.history (m :: ms) =
      (((r.meet m).1.history ms).1, (r.meet m).2 :: ((r.meet m).1.history ms).2) := rfl

theorem Coherent.history (hr : r.Coherent) (ms : List (Moment Input)) :
    (r.history ms).1.Coherent := by
  induction ms generalizing r with
  | nil => exact hr
  | cons m ms ih => exact ih (hr.meet m)

/-- Everything that is said of a step in the course of some inputs. -/
def said (r : StageRun g) (ms : List (Moment Input)) (name : String) : List (Mark g.size) :=
  (r.history ms).2.flatMap (·.marks name)

theorem said_cons (r : StageRun g) (m : Moment Input) (ms : List (Moment Input)) (name : String) :
    r.said (m :: ms) name = (r.meet m).2.marks name ++ (r.meet m).1.said ms name := rfl

theorem said_of_not_mem (hr : r.Coherent) (ms : List (Moment Input)) {name : String}
    (hname : name ∉ g.stage.names) : r.said ms name = [] := by
  induction ms generalizing r with
  | nil => rfl
  | cons m ms ih =>
    rw [said_cons, ih (hr.meet m), List.append_nil]
    exact perform_marks_eq_nil (hr.seeing m.hasFile) m.event hname

/-- Of a step that is over nothing is said any more, and its result stays. -/
theorem said_of_done {e : Ending} (hr : r.Coherent) (hi : r.scheduler.states.get i = .done e)
    (ms : List (Moment Input)) :
    r.said ms (g.name i) = [] ∧ (r.history ms).1.results.get i = r.results.get i := by
  induction ms generalizing r with
  | nil => exact ⟨rfl, rfl⟩
  | cons m ms ih =>
    have hscene := meet_scene hr m i
    rw [hi] at hscene
    obtain ⟨hstate, hresult, hmarks⟩ := hscene.of_done
    obtain ⟨hsaid, hkept⟩ := ih (hr.meet m) hstate
    rw [said_cons, hmarks, hsaid, history_cons, hkept]
    exact ⟨rfl, hresult⟩

/-- Of a running step the lines are told that come in before its end, and then its end. -/
theorem said_of_running (hr : r.Coherent) (hi : r.scheduler.states.get i = .running)
    (ms : List (Moment Input)) :
    ((r.history ms).1.results.get i).output =
        (r.results.get i).output ++ heard (g.name i) (ms.map Moment.event) ∧
      ∃ ending : Option Summary, r.said ms (g.name i) =
        (heard (g.name i) (ms.map Moment.event)).map (fun line => .told (.output (g.name i) line)) ++
          ending.toList.map fun s => .told (.finished (g.name i) s) := by
  induction ms generalizing r with
  | nil => exact ⟨(List.append_nil _).symm, none, rfl⟩
  | cons m ms ih =>
    have hscene := meet_scene hr m i
    rw [hi] at hscene
    rw [said_cons, history_cons, List.map_cons]
    generalize hmarks : (r.meet m).2.marks (g.name i) = marks at hscene
    generalize hres : (r.meet m).1.results.get i = res at hscene
    generalize hst : (r.meet m).1.scheduler.states.get i = st at hscene
    cases hscene with
    | rests unreported =>
      obtain ⟨houtput, ending, hsaid⟩ := ih (hr.meet m) hst
      rw [heard_cons_of_ne _ (unreported rfl), ← hres]
      exact ⟨houtput, ending, hsaid⟩
    | starts waiting | settles waiting => cases waiting
    | @writes _ line written =>
      obtain ⟨houtput, ending, hsaid⟩ := ih (hr.meet m) hst
      rw [written, heard_cons_output, houtput, hres, hsaid]
      exact ⟨List.append_cons .. |>.symm, ending, rfl⟩
    | ends reported =>
      obtain ⟨hsaid, hkept⟩ := said_of_done (hr.meet m) hst ms
      rw [reported, heard_cons_completed, hsaid, hkept, hres, List.append_nil]
      exact ⟨note_output .., some _, rfl⟩

/-- What a run says of a step in the course of some inputs, and the lines that it keeps of it. -/
inductive Protocol (r : StageRun g) (ms : List (Moment Input)) (name : String) :
    List (Mark g.size) → List Line → Prop
  /-- Nothing has happened to the step. -/
  | silent : Protocol r ms name [] []
  /-- The step has ended without having been launched. -/
  | settled {s} : Protocol r ms name [.told (.finished name s)] []
  /-- The step has been launched in answer to one of the inputs. -/
  | launched {m post l} (pre : List (Moment Input)) (ending : Option Summary)
      (split : ms = pre ++ m :: post)
      (before : r.said pre name = [])
      (there : ((r.history pre).1.meet m).2.marks name = [.told (.started name), .launched l]) :
      Protocol r ms name
        (.told (.started name) :: .launched l ::
          ((heard name (post.map Moment.event)).map (fun line => .told (.output name line)) ++
            ending.toList.map fun s => .told (.finished name s)))
        (heard name (post.map Moment.event))

/-- An input that nothing is said of leaves the protocol as it is. -/
theorem Protocol.cons {m : Moment Input} {ms : List (Moment Input)} {name : String}
    {marks : List (Mark g.size)} {lines : List Line} (hm : (r.meet m).2.marks name = [])
    (h : Protocol (r.meet m).1 ms name marks lines) : Protocol r (m :: ms) name marks lines := by
  cases h with
  | silent => exact .silent
  | settled => exact .settled
  | launched pre ending split before there =>
    refine .launched (m :: pre) ending (by rw [split]; rfl) ?_ there
    rw [said_cons, hm, before]
    rfl

/-- A step that waits follows the protocol from now on. -/
theorem said_of_waiting (hr : r.Coherent) (hi : (r.scheduler.states.get i).isWaiting)
    (hlines : (r.results.get i).output = []) (ms : List (Moment Input)) :
    Protocol r ms (g.name i) (r.said ms (g.name i)) ((r.history ms).1.results.get i).output := by
  induction ms generalizing r with
  | nil =>
    rw [show (r.history []).1 = r from rfl, hlines]
    exact .silent
  | cons m ms ih =>
    have hscene := meet_scene hr m i
    rw [said_cons, history_cons]
    generalize hmarks : (r.meet m).2.marks (g.name i) = marks at hscene
    generalize hres : (r.meet m).1.results.get i = res at hscene
    generalize hst : (r.meet m).1.scheduler.states.get i = st at hscene
    generalize r.scheduler.states.get i = st₀ at hscene hi
    cases hscene with
    | rests => exact .cons hmarks (ih (hr.meet m) (hst ▸ hi) (hres ▸ hlines))
    | readies => exact .cons hmarks (ih (hr.meet m) (hst ▸ rfl) (hres ▸ hlines))
    | starts =>
      -- from here on the lines of the step count
      obtain ⟨houtput, ending, hsaid⟩ := said_of_running (hr.meet m) hst ms
      rw [hres, launch_output, hlines, List.nil_append] at houtput
      rw [houtput, hsaid]
      exact .launched [] ending rfl rfl hmarks
    | settles =>
      obtain ⟨hsaid, hkept⟩ := said_of_done (hr.meet m) hst ms
      rw [hsaid, hkept, hres, finish_output, hlines]
      exact .settled
    | writes | ends => cases hi

/-- What still runs is terminated only at the request to cancel the run. -/
theorem perform_terminate {inp : Input} (h : .terminate ∈ (r.perform inp).2.commands) :
    inp = .signal .cancel ∧ ∃ i, (r.perform inp).1.scheduler.states.get i = .running := by
  have happly : ∀ (r : StageRun g) s t, .terminate ∉ (r.apply s t).2.commands := by
    intro r s t
    simp only [apply, List.mem_append, List.mem_map, reduceCtorEq, and_false, exists_false, false_or]
    split <;> simp
  cases inp with
  | start => exact (happly _ _ _ h).elim
  | signal s =>
    cases s with
    | output step line =>
      simp only [perform, StageRun.step, output] at h
      split at h
      next => cases h
      next =>
        split at h
        · cases List.mem_singleton.mp h
        · cases h
    | completed => exact (happly _ _ _ h).elim
    | cancel =>
      refine ⟨rfl, ?_⟩
      simp only [perform, StageRun.step, cancel] at h ⊢
      split
      next hrunning => exact States.exists_running hrunning
      next hrunning =>
        rw [if_neg hrunning] at h
        exact (happly _ _ _ h).elim

/-- **Protocol.** Whatever a run is told, and whatever files come and go, of each step it says nothing;
or, once, that the step has ended; or that it starts, then, once, that it is to be launched, then every
line of the step that comes in before the first report of its end, and at last at most once that it has
ended. The result of the step has just those lines. Nothing is said of other steps, and what runs is
terminated only in answer to a request to cancel that leaves a step running. -/
theorem history_protocol (g : StageGraph) (setting : Setting) (maxParallel : Nat)
    (ms : List (Moment Input)) :
    (∀ i, Protocol (new g setting maxParallel) ms (g.name i)
      ((new g setting maxParallel).said ms (g.name i))
      (((new g setting maxParallel).history ms).1.results.get i).output) ∧
    (∀ name ∉ g.stage.names, (new g setting maxParallel).said ms name = []) ∧
    ∀ m, .terminate ∈ (((new g setting maxParallel).history ms).1.meet m).2.commands →
      m.event = .signal .cancel ∧
        ∃ i, (((new g setting maxParallel).history ms).1.meet m).1.scheduler.states.get i =
          .running := by
  have hcoherent := new_coherent g setting maxParallel
  refine ⟨fun i => ?_, fun name hname => said_of_not_mem hcoherent ms hname,
    fun m hm => perform_terminate hm⟩
  have hpending : (new g setting maxParallel).scheduler.states.get i = .pending :=
    Scheduler.new_states_get g setting maxParallel i
  refine said_of_waiting hcoherent (by rw [hpending]; rfl) ?_ ms
  simp only [new, Row.get_ofFn]

/-- A run of `release` that is cancelled while two steps run; a line of a step that does not run yet is
no part of it. -/
def releaseInputs : List Input :=
  [.start, .signal (.output "test" ⟨.out, "early"⟩), .signal (.output "build" ⟨.out, "compiling"⟩),
    .signal (.completed "build" .success .zero), .signal (.output "docs" ⟨.err, "no index"⟩),
    .signal .cancel, .signal (.completed "docs" (.failed (some 1) none) .zero),
    .signal (.completed "test" .terminated .zero)]

theorem release_protocol :
    (∀ i, Protocol (new release releaseSetting 2) (releaseInputs.map (⟨fun _ => false, ·⟩))
      (release.name i)
      ((new release releaseSetting 2).said (releaseInputs.map (⟨fun _ => false, ·⟩)) (release.name i))
      (((new release releaseSetting 2).history (releaseInputs.map (⟨fun _ => false, ·⟩))).1.results.get
        i).output) ∧
    ((new release releaseSetting 2).said (releaseInputs.map (⟨fun _ => false, ·⟩)) "docs").length = 4 ∧
    heard "docs" (releaseInputs.drop 4) = [⟨.err, "no index"⟩] := by
  obtain ⟨hprotocol, -⟩ :=
    history_protocol release releaseSetting 2 (releaseInputs.map (⟨fun _ => false, ·⟩))
  exact ⟨hprotocol, by decide +kernel, by decide +kernel⟩

end StageRun
end StageFlow
