import StageFlow.Proofs.Presentation.Account
import StageFlow.Proofs.Scheduler.Dispatch
import StageFlow.StageRun.Basic

/-!
# What a run tells

A run tells its listeners what happens to its steps and keeps their results. `Told` relates the states
of the scheduler, the results and everything told so far: at any time the account of a step is what its
state and its result say. It holds after any inputs, whatever files come and go
(`StageRun.history_told`).

`StageRun.history_presented` puts run and presenter together.
-/

namespace StageFlow

variable {g : StageGraph} {setting : Setting}

/-- What is told by a command. -/
def Command.event? {n : Nat} : Command n → Option StepEvent
  | .tell e => some e
  | .launch _ | .terminate => none

/-- What is told by an answer. -/
def Answer.events {n : Nat} (a : Answer n) : List StepEvent := a.commands.filterMap Command.event?

theorem filterMap_tell {α : Type} {n : Nat} (f : α → StepEvent) (as : List α) :
    (as.map fun a => (.tell (f a) : Command n)).filterMap Command.event? = as.map f := by
  rw [List.filterMap_map]
  exact congrFun List.filterMap_eq_map as

theorem RunState.status_eq_running_iff {n : Nat} {st : RunState n} :
    st.status = .running ↔ st = .running := by
  cases st with
  | done e => cases e <;> simp [status, Ending.status]
  | _ => simp [status]

/-- The account of a step in a state with a result. -/
def RunState.account {n : Nat} (st : RunState n) (r : StepResult) : Account where
  heard := !st.isWaiting
  lines := r.output
  ending := if st.isDone then some r.summary else none

namespace StageRun

variable (rs : Row StepResult g.size) (fs : List (Finished g.size)) (ls : List (Launch g.size))

/-- The results after some steps have ended. -/
def ended : Row StepResult g.size :=
  fs.foldl (fun rs f => rs.put f.index (finish (rs.get f.index) f)) rs

/-- The results after some steps have been launched. -/
def begun : Row StepResult g.size :=
  ls.foldl (fun rs l => rs.put l.index (launch (rs.get l.index) l)) rs

/-- What is told of steps that have ended, with their results. -/
def ends : List StepEvent := fs.map fun f => .finished f.name (rs.get f.index).summary

theorem ended_snoc (f : Finished g.size) : ended rs (fs ++ [f]) =
    (ended rs fs).put f.index (finish ((ended rs fs).get f.index) f) := by simp [ended]

variable {rs fs} in
/-- An end does not change what is told of the ends of other steps. -/
theorem ends_snoc {f : Finished g.size} (h : ∀ f' ∈ fs, f.index ≠ f'.index) :
    ends (ended rs (fs ++ [f])) (fs ++ [f]) = ends (ended rs fs) fs ++
      [.finished f.name (finish ((ended rs fs).get f.index) f).summary] := by
  rw [ends, ends, List.map_append, ended_snoc]
  congr 1
  · refine List.map_congr_left fun f' hf' => ?_
    rw [Row.get_put, if_neg (h f' hf')]
  · simp [Row.get_put]

end StageRun

/-- State, result and account of a step agree. -/
structure RunState.Agrees {n : Nat} (st : RunState n) (r : StepResult) (a : Account) : Prop where
  account : a = st.account r
  status : r.status = st.status

/-- The results and what has been told of the steps agree with their states. -/
structure Told (g : StageGraph) (s : States g.size) (rs : Row StepResult g.size)
    (es : List StepEvent) : Prop where
  agrees : ∀ i, (s.get i).Agrees (rs.get i) (Accounts.of es (g.name i))
  orderly : Accounts.Orderly g.stage.names es

namespace Told

variable {s s' : States g.size} {rs : Row StepResult g.size} {es : List StepEvent}
  {i : Fin g.size} {st : RunState g.size} {r : StepResult} {e : StepEvent}

/-- A step moves, and nothing is told of it. -/
theorem put (h : Told g s rs es) (hi : st.Agrees r (Accounts.of es (g.name i))) :
    Told g (s.put i st) (rs.put i r) es := by
  refine ⟨fun j => ?_, h.orderly⟩
  rw [Row.get_put, Row.get_put]
  by_cases hj : i = j
  · subst hj
    simpa only [if_true] using hi
  · simpa only [if_neg hj] using h.agrees j

/-- A step that has not ended moves, and that is told. -/
theorem hear (h : Told g s rs es) (he : e.step = g.name i) (hi : (s.get i).isDone = false)
    (hagrees : st.Agrees r (((s.get i).account (rs.get i)).add e)) :
    Told g (s.put i st) (rs.put i r) (es ++ [e]) := by
  have haccount := (h.agrees i).account
  refine ⟨fun j => ?_, h.orderly.snoc ?_ ?_⟩
  · rw [Accounts.of_snoc, Row.get_put, Row.get_put]
    by_cases hj : i = j
    · subst hj
      rw [← haccount, ← he] at hagrees
      rw [← he, Accounts.hear_self]
      simpa only [if_true] using hagrees
    · rw [Accounts.hear_of_ne fun hne => hj (g.name_injective (he.symm.trans hne))]
      simpa only [if_neg hj] using h.agrees j
  · rw [he, StageGraph.names_eq]
    exact List.mem_map_of_mem (List.mem_finRange i)
  · rw [he, haccount, RunState.account, hi]
    rfl

/-! ## Moves -/

theorem finish (h : Told g s rs es) {f : Finished g.size} (hname : f.name = g.name f.index)
    (hi : (s.get f.index).isDone = false) :
    Told g (s.put f.index (.done f.ending))
      (rs.put f.index (StageRun.finish (rs.get f.index) f))
      (es ++ [.finished f.name (StageRun.finish (rs.get f.index) f).summary]) := by
  refine h.hear hname hi ⟨?_, rfl⟩
  rw [Account.add_finished (by simp [RunState.account, hi])]
  rfl

theorem launch (h : Told g s rs es) {l : Launch g.size} (hname : l.name = g.name l.index)
    (hi : s.get l.index = .ready l) :
    Told g (s.put l.index .running) (rs.put l.index (StageRun.launch (rs.get l.index) l))
      (es ++ [.started l.name]) := by
  refine h.hear hname (by rw [hi]; rfl) ⟨?_, rfl⟩
  rw [Account.add_started (by rw [hi]; rfl), hi]
  rfl

theorem output (h : Told g s rs es) (hi : s.get i = .running) (line : Line) :
    Told g s (rs.put i { rs.get i with output := (rs.get i).output ++ [line] })
      (es ++ [.output (g.name i) line]) := by
  have hstatus := (h.agrees i).status
  have hput : Told g (s.put i (s.get i))
      (rs.put i { rs.get i with output := (rs.get i).output ++ [line] })
      (es ++ [.output (g.name i) line]) := by
    refine h.hear rfl (by rw [hi]; rfl) ⟨?_, hstatus⟩
    rw [Account.add_output (by rw [hi]; rfl), hi]
    rfl
  rwa [Row.put_get] at hput

/-- What a running step reports of its execution is not told before its end. -/
theorem note (h : Told g s rs es) (i : Fin g.size) (o : Outcome) (duration : Duration) :
    Told g s (rs.put i (StageRun.note (rs.get i) o duration)) es := by
  have hagrees := h.agrees i
  have hput : Told g (s.put i (s.get i)) (rs.put i (StageRun.note (rs.get i) o duration)) es := by
    refine h.put ?_
    unfold StageRun.note
    split
    next hrunning =>
      rw [hagrees.status, RunState.status_eq_running_iff] at hrunning
      rw [hrunning] at hagrees ⊢
      exact ⟨hagrees.account, hagrees.status⟩
    next => exact hagrees
  rwa [Row.put_get] at hput

/-- Steps that become ready leave nothing to tell. -/
theorem ready (h : Told g s rs es) {l : Launch g.size} (hi : s.get l.index = .pending) :
    Told g (s.put l.index (.ready l)) rs es := by
  have hagrees := h.agrees l.index
  rw [hi] at hagrees
  have hput : Told g (s.put l.index (.ready l)) (rs.put l.index (rs.get l.index)) es :=
    h.put ⟨hagrees.account, hagrees.status⟩
  rwa [Row.put_get] at hput

/-- Moves that end steps are told with the results. -/
theorem moves {ms : List (Move g.size)} (h : Told g s rs es) (H : Moves g setting s ms s')
    (hms : ms.filterMap Move.launch? = []) :
    Told g s' (StageRun.ended rs (ms.filterMap (Move.finished? g)))
      (es ++ StageRun.ends (StageRun.ended rs (ms.filterMap (Move.finished? g)))
        (ms.filterMap (Move.finished? g))) := by
  induction H with
  | nil => simpa [StageRun.ends, StageRun.ended] using h
  | @snoc ms s₁ m H hm ih =>
    rw [List.filterMap_append, List.append_eq_nil_iff] at hms
    have ih := ih hms.1
    cases hf : m.finished? g with
    | none =>
      rw [List.filterMap_append, List.filterMap_cons_none hf, List.filterMap_nil, List.append_nil]
      cases hm with
      | ready pending => exact ih.ready pending
      | launch => cases hms.2
      | blocked | inapplicable | invalid | completed | dropped => cases hf
    | some f =>
      obtain ⟨hindex, hname, hstate⟩ := Move.of_finished? hf
      have hopen : (s₁.get f.index).isDone = false := by
        cases hs : s₁.get f.index with
        | done e => exact (hm.not_done (hindex ▸ hs)).elim
        | _ => rfl
      -- the step ends now, so the ends that were told before are those of other steps
      have hothers : ∀ f' ∈ ms.filterMap (Move.finished? g), f.index ≠ f'.index := by
        intro f' hf' heq
        have hdone := H.done_of_finished hf'
        rw [← heq] at hdone
        rw [hdone] at hopen
        cases hopen
      have hafter : m.after g s₁ = s₁.put f.index (.done f.ending) := by
        rw [Move.after, hindex, hstate]
      have hfinish := ih.finish hname hopen
      rw [← StageRun.ended_snoc, List.append_assoc] at hfinish
      rw [List.filterMap_append, List.filterMap_cons_some hf, List.filterMap_nil, hafter,
        StageRun.ends_snoc hothers]
      exact hfinish

theorem launches {ls : List (Launch g.size)} (h : Told g s rs es)
    (hs : s.Placed g) (H : Moves g setting s (ls.map .launch) s') :
    Told g s' (StageRun.begun rs ls) (es ++ ls.map fun l => .started l.name) := by
  induction ls generalizing s rs es with
  | nil =>
    obtain rfl := H.eq_of_nil
    simpa [StageRun.begun] using h
  | cons l ls ih =>
    obtain ⟨hm, H⟩ := H.of_cons
    cases hm with
    | launch ready =>
      have hallowed : (Move.launch l).Allowed g setting s := .launch ready
      have hlaunch := ih (h.launch (hs l.index l ready).2 ready) (hallowed.placed hs) H
      rwa [List.append_assoc] at hlaunch

end Told

/-! ## Inputs of a run -/

namespace StageRun

/-- What a run is given. -/
inductive Input where
  | start
  | signal (s : Signal)
  deriving DecidableEq

/-- What an input means to the scheduler. -/
def Input.operation? : Input → Option Operation
  | .start => some .start
  | .signal (.completed step o _) => some (.complete step o)
  | .signal .cancel => some .cancel
  | .signal (.output ..) => none

variable {r : StageRun g} {es : List StepEvent}

/-- Takes an input. -/
def perform (r : StageRun g) : Input → StageRun g × Answer g.size
  | .start => r.start
  | .signal s => r.step s

/-- The run with other files to see. -/
def seeing (r : StageRun g) (hasFile : String → Bool) : StageRun g :=
  { r with scheduler := r.scheduler.seeing hasFile }

/-- Takes an input with the files of its moment. -/
def meet (r : StageRun g) (m : Moment Input) : StageRun g × Answer g.size :=
  (r.seeing m.hasFile).perform m.event

/-- Takes inputs in order, each with the files of its moment. -/
def history (r : StageRun g) (ms : List (Moment Input)) : StageRun g × List (Answer g.size) :=
  carry meet r ms

theorem apply_events (r : StageRun g) (s : Scheduler g) (t : Transition g.size) :
    (r.apply s t).2.events =
      ends (ended r.results t.finished) t.finished ++ t.launched.map fun l => .started l.name := by
  have hlaunch : (if t.launched.isEmpty then [] else [Command.launch t.launched]).filterMap
      Command.event? = [] := by split <;> rfl
  simp only [Answer.events, apply, List.filterMap_append, hlaunch, List.append_nil, filterMap_tell]
  rfl

/-- What an operation of the scheduler means is told. -/
theorem apply_told (h : Told g r.scheduler.states r.results es)
    (hs : r.scheduler.states.Placed g) (op : Operation) :
    Told g (r.scheduler.perform op).1.states
      (r.apply (r.scheduler.perform op).1 (r.scheduler.perform op).2).1.results
      (es ++ (r.apply (r.scheduler.perform op).1 (r.scheduler.perform op).2).2.events) := by
  obtain ⟨ms, hms⟩ := Scheduler.perform_explained hs op
  obtain ⟨s₁, H₁, H₂⟩ := hms.moves.of_append
  have hends := h.moves H₁ hms.launch?_eq_none
  rw [← hms.finished] at hends
  have hstarts := hends.launches (H₁.placed hs) H₂
  rw [List.append_assoc] at hstarts
  rw [apply_events]
  exact hstarts

theorem perform_told (h : Told g r.scheduler.states r.results es)
    (hs : r.scheduler.states.Placed g) (i : Input) :
    Told g (r.perform i).1.scheduler.states (r.perform i).1.results
      (es ++ (r.perform i).2.events) := by
  cases i with
  | start => exact apply_told h hs .start
  | signal sig =>
    cases sig with
    | output step line =>
      have unheard : Told g r.scheduler.states r.results (es ++ []) := by rwa [List.append_nil]
      simp only [perform, StageRun.step, output]
      split
      next => exact unheard
      next i hi =>
        obtain rfl := StageGraph.indexOf?_eq_some_iff.mp hi
        split
        next hrunning =>
          have hstatus := (h.agrees i).status
          rw [hrunning, eq_comm, RunState.status_eq_running_iff] at hstatus
          exact h.output hstatus line
        next => exact unheard
    | completed step o duration =>
      simp only [perform, StageRun.step, complete]
      split
      next => exact apply_told h hs (.complete step o)
      next i hi =>
        exact apply_told (r := { r with results := r.results.put i (note (r.results.get i) o duration) })
          (h.note i o duration) hs (.complete step o)
    | cancel =>
      have htold := apply_told (r := { r with cancelled := true }) h hs .cancel
      simp only [perform, StageRun.step, cancel]
      have hterminate : ∀ a : Answer g.size,
          ({ a with commands := a.commands ++ [.terminate] } : Answer g.size).events = a.events := by
        intro a
        simp [Answer.events, Command.event?]
      split
      · rw [hterminate]
        exact htold
      · exact htold

theorem perform_scheduler (r : StageRun g) (i : Input) :
    (r.perform i).1.scheduler =
      (i.operation?.map fun op => (r.scheduler.perform op).1).getD r.scheduler := by
  cases i with
  | start => rfl
  | signal sig =>
    cases sig with
    | output step line =>
      simp only [perform, StageRun.step, output]
      split
      · rfl
      · split <;> rfl
    | completed => rfl
    | cancel =>
      simp only [perform, StageRun.step, cancel]
      split <;> rfl

/-- What operations of the scheduler preserve is preserved by inputs. -/
theorem perform_scheduler_of {P : Scheduler g → Prop} (h : P r.scheduler)
    (hop : ∀ op, P (r.scheduler.perform op).1) (inp : Input) : P (r.perform inp).1.scheduler := by
  rw [perform_scheduler]
  cases inp.operation? with
  | none => exact h
  | some op => exact hop op

theorem meet_kept {slots : Nat} (h : r.scheduler.Kept slots) (m : Moment Input) :
    (r.meet m).1.scheduler.Kept slots :=
  perform_scheduler_of (r := r.seeing m.hasFile) (h.seeing m.hasFile)
    (fun op => (h.seeing m.hasFile).perform op) m.event

/-! ## Histories -/

/-- Everything that is told in the course of some inputs. -/
def told (r : StageRun g) (ms : List (Moment Input)) : List StepEvent :=
  (r.history ms).2.flatMap Answer.events

/-- Results and listeners keep up with the scheduler. -/
theorem history_told {slots : Nat} (h : Told g r.scheduler.states r.results es)
    (hkept : r.scheduler.Kept slots) (ms : List (Moment Input)) :
    Told g (r.history ms).1.scheduler.states (r.history ms).1.results (es ++ r.told ms) ∧
      (r.history ms).1.scheduler.Kept slots := by
  induction ms generalizing r es with
  | nil => exact ⟨by simpa [told, history] using h, hkept⟩
  | cons m ms ih =>
    have hmeet : Told g (r.meet m).1.scheduler.states (r.meet m).1.results
      (es ++ (r.meet m).2.events) := perform_told (r := r.seeing m.hasFile) h hkept.placed m.event
    have hrest := ih hmeet (meet_kept hkept m)
    rw [List.append_assoc] at hrest
    exact hrest

theorem new_told (g : StageGraph) (setting : Setting) (maxParallel : Nat) :
    Told g (new g setting maxParallel).scheduler.states (new g setting maxParallel).results [] := by
  refine ⟨fun i => ?_, fun pre e post h => by simp at h⟩
  simp only [new, Scheduler.new_states_get, Row.get_ofFn]
  exact ⟨rfl, rfl⟩

/-- **Presentation.** When a run is over, whatever files came and went, a presenter that was fed everything
it told, in order, has dropped nothing, is complete and holds nothing back. It has shown each step in
declaration order: its start, every line in its result, and its end with the summary of its result. -/
theorem history_presented (g : StageGraph) (setting : Setting) (maxParallel : Nat)
    (ms : List (Moment Input)) (hfinished : ((new g setting maxParallel).history ms).1.isFinished) :
    ((Presenter.new g.stage.names).feed ((new g setting maxParallel).told ms)).1.isComplete ∧
    (∀ pre e post, (new g setting maxParallel).told ms = pre ++ e :: post →
      ((Presenter.new g.stage.names).feed pre).1.journal e = []) ∧
    ((Presenter.new g.stage.names).feed ((new g setting maxParallel).told ms)).1.finish.2 = [] ∧
    ((Presenter.new g.stage.names).feed ((new g setting maxParallel).told ms)).2 =
      (List.finRange g.size).flatMap fun i =>
        .start (g.name i) ::
          (((new g setting maxParallel).history ms).1.results.get i).output.map
            (.output (g.name i)) ++
          [.finish (g.name i) (((new g setting maxParallel).history ms).1.results.get i).summary] := by
  obtain ⟨htold, hkept⟩ :=
    history_told (new_told g setting maxParallel) (Scheduler.new_kept g setting maxParallel) ms
  rw [List.nil_append] at htold
  have haccount : ∀ i, Accounts.of ((new g setting maxParallel).told ms) (g.name i) =
      ⟨true, (((new g setting maxParallel).history ms).1.results.get i).output,
        some (((new g setting maxParallel).history ms).1.results.get i).summary⟩ := by
    intro i
    obtain ⟨e, he⟩ := Scheduler.exists_done hkept.steady hfinished i
    rw [(htold.agrees i).account, he]
    rfl
  have hended : ∀ n ∈ g.stage.names,
      (Accounts.of ((new g setting maxParallel).told ms) n).ending.isSome := by
    intro n hn
    rw [StageGraph.names_eq] at hn
    obtain ⟨i, -, rfl⟩ := List.mem_map.mp hn
    rw [haccount]
    rfl
  obtain ⟨hserves, hshown⟩ := Presenter.feed_new g.names_nodup ((new g setting maxParallel).told ms)
  have hlanes := hserves.eq_nil hended
  refine ⟨?_, fun pre e post heq => ?_, ?_, ?_⟩
  · rw [Presenter.isComplete, hlanes]
    rfl
  · obtain ⟨hstep, hopen⟩ := htold.orderly pre e post heq
    obtain ⟨hserves, -⟩ := Presenter.feed_new g.names_nodup pre
    exact Presenter.journal_eq_nil_iff.mpr ((hserves.hears_iff g.names_nodup).mpr ⟨hstep, hopen⟩)
  · rw [Presenter.finish, hlanes]
    rfl
  · rw [hshown, Accounts.progress_of_ended hended, StageGraph.names_eq, List.flatMap_map]
    refine congrArg (List.flatMap · _) (funext fun i => ?_)
    rw [haccount]
    rfl

/-- A run of `signing` in which the second step finds its file and is told to stop; a line of a step that
does not run yet is no part of it. -/
def signingInputs : List (Moment Input) :=
  [⟨fun _ => false, .start⟩, ⟨fun _ => false, .signal (.output "sign" ⟨.out, "early"⟩)⟩,
    ⟨(· = "key"), .signal (.output "keygen" ⟨.out, "writing key"⟩)⟩,
    ⟨(· = "key"), .signal (.completed "keygen" .success .zero)⟩,
    ⟨fun _ => false, .signal (.output "sign" ⟨.err, "slow"⟩)⟩, ⟨fun _ => false, .signal .cancel⟩,
    ⟨fun _ => false, .signal (.completed "sign" .terminated .zero)⟩]

theorem signing_presented :
    ((new signing releaseSetting 2).history signingInputs).1.isFinished ∧
    ((Presenter.new signing.stage.names).feed
      ((new signing releaseSetting 2).told signingInputs)).1.isComplete ∧
    ((Presenter.new signing.stage.names).feed
      ((new signing releaseSetting 2).told signingInputs)).1.finish.2 = [] ∧
    ((Presenter.new signing.stage.names).feed
        ((new signing releaseSetting 2).told signingInputs)).2 =
      ((List.finRange signing.size).flatMap fun i =>
        .start (signing.name i) ::
          (((new signing releaseSetting 2).history signingInputs).1.results.get i).output.map
            (.output (signing.name i)) ++
          [.finish (signing.name i)
            (((new signing releaseSetting 2).history signingInputs).1.results.get i).summary]) ∧
    (((new signing releaseSetting 2).history signingInputs).1.results.get ⟨3, by decide⟩).output =
      [⟨.err, "slow"⟩] := by
  have hfinished : ((new signing releaseSetting 2).history signingInputs).1.isFinished := by
    decide +kernel
  obtain ⟨hcomplete, -, hfinish, hshown⟩ :=
    history_presented signing releaseSetting 2 signingInputs hfinished
  exact ⟨hfinished, hcomplete, hfinish, hshown, by decide +kernel⟩

end StageRun
end StageFlow
