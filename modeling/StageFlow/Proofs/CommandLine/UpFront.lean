import StageFlow.CommandLine.Performance
import StageFlow.Proofs.Config.Validation

/-!
# Errors before anything runs

Nothing half-runs because of an error in the configuration or on the command line: whatever can be wrong
with them is found before the first stage begins. A configuration that has been accepted builds into
graphs for all of its stages, so that later on only executors can fail, and an invocation that ends with
an error of the configuration family has not done anything (`Invocation.carryOut_up_front`). It does not
matter what the host is like that it is carried out in.
-/

namespace StageFlow

/-! ## Accepted configurations -/

/-- Every stage builds into a graph of its own. -/
def Config.Builds [Toposort] (c : Config) : Prop :=
  ∀ stage ∈ c.stages.values, ∃ g, StageGraph.build stage c.actions = .ok g ∧ g.stage = stage

theorem StageGraph.stage_of_build [Toposort] {stage : Stage} {actions : Actions} {g : StageGraph}
    (h : build stage actions = .ok g) : g.stage = stage := by
  have hbuilt := build_built stage actions
  rw [h] at hbuilt
  exact hbuilt.1

/-- What has been checked once is built again without fault. -/
theorem Config.builds_of_check [Toposort] {w : Written.Config} {c : Config} (h : w.check = .ok c) :
    c.Builds := by
  obtain ⟨hvalid, hreads⟩ := Written.Config.check_eq_ok_iff.mp h
  have hstages := Table.forall₂_and_left.mpr ⟨hvalid.stages, hreads.stages⟩
  refine hstages.forall_right fun hs => ?_
  obtain ⟨-, hs⟩ := (hs.2.valid_iff hreads.actions.keys_eq).mp hs.1
  obtain ⟨g, hg⟩ := StageGraph.exists_build_iff.mpr hs
  exact ⟨g, hg, StageGraph.stage_of_build hg⟩

namespace Config

variable {c : Config} {names : List String} {stages : List Stage}

theorem exists_check_of_ofWritten [Toposort] {read : Option Written.Config} (h : ofWritten read = .ok c) :
    ∃ w : Written.Config, w.check = .ok c := by
  cases read with
  | none => cases h
  | some w => exact ⟨w, h⟩

theorem mem_values_of_stage {name : String} {stage : Stage} (h : c.stage name = .ok stage) :
    stage ∈ c.stages.values := by
  unfold Config.stage at h
  split at h
  next => cases h
  next hget =>
    cases h
    obtain ⟨e, he, rfl⟩ := Option.map_eq_some_iff.mp hget
    exact List.mem_map_of_mem (List.mem_of_find?_eq_some he)

theorem mem_values_of_select (h : c.select names = .ok stages) :
    ∀ stage ∈ stages, stage ∈ c.stages.values := by
  unfold select at h
  split at h
  next =>
    cases h
    exact fun _ hstage => hstage
  next =>
    exact forall_mem_right_of_forall₂ (mapM_eq_ok_iff.mp h) mem_values_of_stage

end Config

theorem Host.exists_check_of_config [Toposort] {σ ε : Type} {h : Host σ ε} {world : σ} {path : String}
    {c : Config} (hc : h.config world path = .ok c) : ∃ w : Written.Config, w.check = .ok c := by
  unfold config at hc
  split at hc
  next => cases hc
  next => exact Config.exists_check_of_ofWritten hc

/-! ## Stages one after the other -/

namespace Staging

variable [Toposort] {σ ε : Type} {h : Host σ ε} {s : Staging} {stages : List Stage} {p : Proceedings σ}
  {e : RunError}

/-- Where all stages build only executors fail. -/
theorem runAll_error (hbuilds : ∀ stage ∈ stages, ∃ g, StageGraph.build stage s.setting.actions = .ok g)
    (herror : (s.runAll h stages p).2 = .error e) : ∃ f, e = .execution f := by
  induction stages generalizing p with
  | nil => cases herror
  | cons stage stages ih =>
    obtain ⟨⟨g, hg⟩, hbuilds⟩ := List.forall_mem_cons.mp hbuilds
    unfold runAll at herror
    rw [hg] at herror
    dsimp only at herror
    split at herror
    next p' r _ =>
      split at herror
      next => exact ih hbuilds herror
      next => cases herror
      next => cases herror
    next => exact ⟨_, (Except.error.inj herror).symm⟩
    next => exact ⟨_, (Except.error.inj herror).symm⟩

theorem planAll_ok (hbuilds : ∀ stage ∈ stages, ∃ g, StageGraph.build stage s.setting.actions = .ok g) :
    (s.planAll stages p).2 = .ok .success := by
  induction stages generalizing p with
  | nil => rfl
  | cons stage stages ih =>
    obtain ⟨⟨g, hg⟩, hbuilds⟩ := List.forall_mem_cons.mp hbuilds
    unfold planAll
    rw [hg]
    exact ih hbuilds

end Staging

/-! ## The marks of a stage -/

/-- Whatever has been printed and logged is still there, in front of what came later. -/
structure Proceedings.Extends {σ : Type} (p p' : Proceedings σ) : Prop where
  written : p.terminal.written <+: p'.terminal.written
  journal : p.journal.toList <+: p'.journal.toList

namespace Proceedings

variable {σ : Type} {p p' p'' : Proceedings σ}

theorem Extends.refl (p : Proceedings σ) : p.Extends p := ⟨List.prefix_rfl, List.prefix_rfl⟩

theorem Extends.trans (h : p.Extends p') (h' : p'.Extends p'') : p.Extends p'' :=
  ⟨h.written.trans h'.written, h.journal.trans h'.journal⟩

theorem journal_note (entries : List LogEntry) :
    (p.note entries).journal.toList = p.journal.toList ++ entries := Array.toList_appendList

theorem extends_note (entries : List LogEntry) : p.Extends (p.note entries) := by
  refine ⟨List.prefix_rfl, ?_⟩
  rw [journal_note]
  exact List.prefix_append _ _

theorem extends_present (notices : List Notice) : p.Extends (p.present notices) := by
  induction notices generalizing p with
  | nil => exact .refl p
  | cons n notices ih =>
    -- what is shown next is added to the terminal, and if that fails the cause to the journal
    have hterminal : p.Extends { p with terminal := (p.terminal.write n).1 } :=
      ⟨List.prefix_append _ _, List.prefix_rfl⟩
    exact (hterminal.trans (extends_note _)).trans ih

/-- A terminal that takes everything shows the message in full. -/
theorem written_present (h : p.terminal.capacity = none) (n : Notice) :
    (p.present [n]).terminal.written = p.terminal.written ++ n.text p.terminal.workdir := by
  simp only [present, note, Terminal.write, h, List.foldl_cons, List.foldl_nil]

end Proceedings

/-- Whatever comes of a stage that is begun, it has been logged and announced. -/
theorem Staging.runStage_begins {σ ε : Type} (h : Host σ ε) (s : Staging) (p : Proceedings σ)
    (g : StageGraph) :
    p.journal.toList ++ [Dispatcher.startedEntry] <+: (s.runStage h p g).1.journal.toList ∧
      (p.terminal.capacity = none →
        p.terminal.written ++ (Notice.stageStarted g.stage.name g.size).text p.terminal.workdir <+:
          (s.runStage h p g).1.terminal.written) := by
  have hextends : ((p.note [Dispatcher.startedEntry]).present
      [.stageStarted g.stage.name g.size]).Extends (s.runStage h p g).1 := by
    unfold runStage
    extract_lets begun new session
    generalize Session.run _ _ session = ended
    obtain ⟨session, conclusion⟩ := ended
    dsimp -zeta only
    extract_lets shown left
    have hshown : begun.Extends shown :=
      (Proceedings.extends_present _).trans (Proceedings.extends_note _)
    have hleft : begun.Extends left := ⟨hshown.written, hshown.journal⟩
    split
    next => exact hleft.trans (Proceedings.extends_present _)
    next => exact hleft
  constructor
  · rw [← Proceedings.journal_note]
    exact (Proceedings.extends_present _).journal.trans hextends.journal
  · intro hcapacity
    have hwritten := Proceedings.written_present (p := p.note [Dispatcher.startedEntry]) hcapacity
      (.stageStarted g.stage.name g.size)
    exact hwritten ▸ hextends.written

/-! ## Invocations -/

namespace Invocation

section
variable [Toposort] {σ ε : Type} {h : Host σ ε} {i : Invocation} {world : σ} {e : RunError}

theorem builds_of_chosen {c : Config} {stages : List Stage}
    (hchosen : i.chosen h world = .ok (c, stages)) :
    ∀ stage ∈ stages, ∃ g, StageGraph.build stage c.actions = .ok g := by
  simp only [chosen, bind_eq_ok] at hchosen
  obtain ⟨c', hc, -, -, stages', hstages, heq⟩ := hchosen
  cases heq
  obtain ⟨w, hw⟩ := Host.exists_check_of_config hc
  intro stage hstage
  obtain ⟨g, hg, -⟩ := Config.builds_of_check hw stage (Config.mem_values_of_select hstages stage hstage)
  exact ⟨g, hg⟩

/-- An invocation fails before it has done anything, or because an executor does. -/
theorem carryOut_error [Matcher] [Platform] (herror : (i.carryOut h world).2 = .error e) :
    (i.carryOut h world).1 = { world } ∨ ∃ f, e = .execution f := by
  revert herror
  unfold carryOut
  dsimp only
  split
  next => exact fun _ => .inl rfl
  next c stages hchosen =>
    have hbuilds := builds_of_chosen hchosen
    split
    next => exact nofun
    next =>
      split
      next => exact fun _ => .inl rfl
      next =>
        split
        next =>
          rw [Staging.planAll_ok hbuilds]
          exact nofun
        next => exact fun herror => .inr (Staging.runAll_error hbuilds herror)

/-- **Nothing half-runs.** Every stage of an accepted configuration builds into a graph, whatever it is
run in. An invocation that ends with an error of the configuration family has printed and logged nothing,
and left the world as it was; and so no stage was begun, since a stage that is begun is logged and
announced. -/
theorem carryOut_up_front [Matcher] [Platform] (h : Host σ ε) :
    (∀ (w : Written.Config) (c : Config), w.check = .ok c → ∀ stage ∈ c.stages.values,
      ∀ setting : Setting, setting.actions = c.actions →
        ∃ g, StageGraph.build stage setting.actions = .ok g ∧ g.stage = stage) ∧
    (∀ (i : Invocation) (world : σ) (e : RunError), (i.carryOut h world).2 = .error e →
      e.isConfig → (i.carryOut h world).1 = { world }) ∧
    ∀ (s : Staging) (p : Proceedings σ) (g : StageGraph),
      p.journal.toList ++ [Dispatcher.startedEntry] <+: (s.runStage h p g).1.journal.toList ∧
        (p.terminal.capacity = none →
          p.terminal.written ++ (Notice.stageStarted g.stage.name g.size).text p.terminal.workdir <+:
            (s.runStage h p g).1.terminal.written) := by
  refine ⟨fun w c hc stage hstage setting hactions => ?_, fun i world e he hconfig => ?_,
    Staging.runStage_begins h⟩
  · rw [hactions]
    exact Config.builds_of_check hc stage hstage
  · obtain huntouched | ⟨f, rfl⟩ := carryOut_error he
    · exact huntouched
    · cases hconfig

end

/-- A stage that there is, and one that there is not. -/
def checkThenGone : Invocation where
  stages := ["check", "gone"]

/-- Where there is a configuration with one stage. -/
def besideCheck : Surroundings where
  disk := Disk.bare.withFile ["Stagerun.toml"]
    "[action.make]\ncmd = \"make\"\n\n[[stage.check.step]]\naction = \"make\"\n"
  cwd := []
  env := []
  cores := 1

/-- The first of the two stages is not run, although nothing is wrong with it. -/
theorem checkThenGone_untouched :
    (checkThenGone.perform besideCheck).2 = .error (.stageNotFound "gone") ∧
      (checkThenGone.perform besideCheck).1 = { world := besideCheck.disk } := by
  have herror : (checkThenGone.perform besideCheck).2 = .error (.stageNotFound "gone") := by
    decide +kernel
  exact ⟨herror, (carryOut_up_front besideCheck.host).2.1 checkThenGone besideCheck.disk _ herror rfl⟩

end Invocation
end StageFlow
