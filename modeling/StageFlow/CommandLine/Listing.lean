import StageFlow.Scheduler.Basic

/-!
# Listings

What is printed about stages that are not run: a list of their steps, or what each step would do.
-/

namespace StageFlow

/-- The line about a step in a list. -/
def Step.listed (s : Step) : String :=
  "  - " ++ s.name ++ " (" ++ s.action ++ ")" ++
    if s.requires.isEmpty then "" else " requires " ++ ", ".intercalate s.requires

/-- The lines about a stage in a list. -/
def Stage.listed (s : Stage) : List String :=
  (match s.description with
    | some text => s.name ++ ": " ++ text
    | none => s.name) :: s.steps.map Step.listed

/-- The line about what a step would do. -/
def Planned.decisionLine (p : Planned) : String :=
  match p.decision with
  | .inl r => "      runs: " ++ r.text
  | .inr (.inl r) => "      skipped: " ++ r.text
  | .inr (.inr u) => "      error: " ++ u.message

/-- The lines about a step that is not run. -/
def Planned.lines (p : Planned) : List String :=
  ("  - " ++ p.name ++ " [level " ++ p.level.repr ++ "]") ::
    (if p.requires.isEmpty then [] else ["      requires: " ++ ", ".intercalate p.requires]) ++
    [p.decisionLine]

/-- The lines about a stage that is not run. -/
def StageGraph.planLines (g : StageGraph) (setting : Setting) : List String :=
  "" :: ("stage '" ++ g.stage.name ++ "' (" ++ g.size.repr ++ " steps):") ::
    (g.plan setting).flatMap Planned.lines

/-- The first lines of a plan. -/
def planHeader (workdir : String) (maxParallel : Nat) : List String :=
  ["stagerun dry-run", "  workdir = " ++ workdir, "  max_parallel = " ++ maxParallel.repr]

end StageFlow
