import StageFlow.Executor.Scripted
import StageFlow.Proofs.StageRun.Sessions

/-!
# Rehearsals

A scripted executor keeps its word if it is willing (`Scripted.operations_reliable`), so a rehearsal with
it never fails, whatever the script.
-/

namespace StageFlow

variable {n : Nat}

theorem Reports.lines {out : List String} {step : String} (h : step ∈ out) (lines : List Line) :
    Reports out (lines.map (.output step)) out := by
  induction lines with
  | nil => exact .nil
  | cons line lines ih => exact .write h ih

namespace Scripted

variable {s s' : Scripted} {out : List String}

/-- A willing executor works on some steps. -/
structure Works (s : Scripted) (out : List String) : Prop where
  willing : s.script.manner = .willing
  running : s.running.map Running.step = out
  nodup : out.Nodup

theorem foldl_begin (ls : List (Launch n)) (s : Scripted) :
    (ls.foldl begin s).script = s.script ∧
      (ls.foldl begin s).running.map Running.step =
        s.running.map Running.step ++ ls.map Launch.name := by
  induction ls generalizing s with
  | nil => exact ⟨rfl, (List.append_nil _).symm⟩
  | cons l ls ih =>
    obtain ⟨hscript, hrunning⟩ := ih (s.begin l)
    refine ⟨hscript, hrunning.trans ?_⟩
    simp [begin]

namespace Works

theorem launch (hs : s.Works out) (ls : List (Launch n)) (h : (out ++ ls.map Launch.name).Nodup) :
    ∃ s' log, s.launch ls = .ok (s', log) ∧ s'.Works (out ++ ls.map Launch.name) := by
  obtain ⟨hscript, hrunning⟩ := foldl_begin ls s
  refine ⟨ls.foldl begin s, [], ?_, ?_, ?_, h⟩
  · simp only [Scripted.launch, hs.willing]
  · rw [hscript, hs.willing]
  · rw [hrunning, hs.running]

/-- A step that ends reports so, and is worked on no more. -/
theorem conclude (hs : s.Works out) {r : Running} (hr : r ∈ s.running) (o : Outcome) :
    ∃ out', Reports out (s.conclude r o).1.signals out' ∧ (s.conclude r o).2.Works out' := by
  have hstep : r.step ∈ out := hs.running ▸ List.mem_map_of_mem hr
  refine ⟨out.erase r.step, .finish hstep .nil, hs.willing, ?_, hs.nodup.erase _⟩
  rw [hs.nodup.erase_eq_filter, ← hs.running, List.filter_map]
  refine congrArg (List.map Running.step) (List.filter_congr fun q _ => ?_)
  rw [decide_not]
  rfl

theorem advance (hs : s.Works out) {happening : Happening} (h : s.advance = some (happening, s')) :
    ∃ out', Reports out happening.signals out' ∧ s'.Works out' := by
  unfold Scripted.advance at h
  split at h
  next r hr =>
    obtain ⟨rfl, rfl⟩ := Prod.mk.inj (Option.some.inj h)
    have hstep : r.step ∈ out := hs.running ▸ List.mem_map_of_mem (List.mem_of_find?_eq_some hr)
    refine ⟨out, .lines hstep _, hs.willing, ?_, hs.nodup⟩
    rw [← hs.running, List.map_map]
    refine List.map_congr_left fun q _ => ?_
    dsimp only [Function.comp]
    split <;> rfl
  next =>
    split at h
    next =>
      obtain ⟨rfl, rfl⟩ := Prod.mk.inj (Option.some.inj h)
      exact ⟨out, .nil, hs.willing, hs.running, hs.nodup⟩
    next =>
      split at h
      next r rs _ hrunning =>
        have hends := hs.conclude (r := r) (hrunning ▸ List.mem_cons_self) .terminated
        rwa [Option.some.inj h] at hends
      next =>
        split at h
        next r hr =>
          have hends := hs.conclude (List.mem_of_find?_eq_some hr) r.part.outcome
          rwa [Option.some.inj h] at hends
        next =>
          obtain ⟨t, -, ht⟩ := Option.map_eq_some_iff.mp h
          obtain ⟨rfl, rfl⟩ := Prod.mk.inj ht
          exact ⟨out, .nil, hs.willing, hs.running, hs.nodup⟩

end Works

theorem operations_reliable (n : Nat) : (operations n).Reliable Works where
  launch ls hs h := hs.launch ls h
  terminate hs := ⟨_, _, rfl, hs.willing, hs.running, hs.nodup⟩
  cancel hs := hs
  advance hs h := hs.advance h
  closed hs h := by
    have hgone := of_decide_eq_true h
    rw [hs.willing] at hgone
    cases hgone

end Scripted

/-- A rehearsal with a willing executor never fails, and what it returns is complete. -/
theorem Script.rehearse_complete (script : Script) (hscript : script.manner = .willing)
    (g : StageGraph) (setting : Setting) (maxParallel bound : Nat) :
    (∀ fault, (script.rehearse g setting maxParallel bound).2 ≠ .fault fault) ∧
    ∀ r, (script.rehearse g setting maxParallel bound).2 = .result r →
      r.steps.map StepResult.name = g.stage.names ∧ ∀ step ∈ r.steps, step.status.isTerminal :=
  Session.run_complete (h := { executor := Scripted.operations g.size })
    (Scripted.operations_reliable g.size) setting maxParallel ⟨hscript, rfl, .nil⟩ _ bound

end StageFlow
