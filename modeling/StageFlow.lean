import StageFlow.Executor.Scripted
import StageFlow.Main
import StageFlow.Presentation.Recording
import StageFlow.Proofs.Graph.Cycles
import StageFlow.Proofs.Graph.Levels
import StageFlow.Proofs.Graph.Validity
import StageFlow.Proofs.Graph.Rings
import StageFlow.Proofs.Graph.Representation
import StageFlow.Proofs.Scheduler.Dependencies
import StageFlow.Proofs.Scheduler.Progress
import StageFlow.Proofs.Scheduler.Fate
import StageFlow.Proofs.Scheduler.Cascade
import StageFlow.Proofs.Scheduler.Lives
import StageFlow.Proofs.Scheduler.Dispatch
import StageFlow.Proofs.Scheduler.Cancellation
import StageFlow.Proofs.Scheduler.Plan
import StageFlow.Proofs.Presentation.Account
import StageFlow.Proofs.Presentation.Streams
import StageFlow.Proofs.Presentation.Eagerness
import StageFlow.Proofs.StageRun.Told
import StageFlow.Proofs.StageRun.Protocol
import StageFlow.Proofs.StageRun.Mirror
import StageFlow.Proofs.StageRun.Outcome
import StageFlow.Proofs.StageRun.Delivery
import StageFlow.Proofs.StageRun.Rehearsal
import StageFlow.Proofs.StageRun.Strays
import StageFlow.Proofs.Expr.Completeness
import StageFlow.Proofs.Expr.Height
import StageFlow.Proofs.Expr.Strictness
import StageFlow.Proofs.Version.Precedence
import StageFlow.Proofs.Version.Preorder
import StageFlow.Proofs.Template
import StageFlow.Proofs.Executor.Reports
import StageFlow.Proofs.CommandLine.UpFront
import StageFlow.Proofs.Executor.Forwarding
import StageFlow.Proofs.Context
import StageFlow.Proofs.Executor.Crew
import StageFlow.Proofs.Number.Rounding
import StageFlow.Proofs.Number.Shortest
import StageFlow.Proofs.Number.Digits
import StageFlow.Proofs.Number.Notation
import StageFlow.Proofs.Expr.Variable
import StageFlow.Proofs.CommandLine.Assignment
import StageFlow.Proofs.Expr.Literals
import StageFlow.Proofs.Expr.Extents
import StageFlow.Proofs.Expr.Passes
import StageFlow.Proofs.Expr.Descent
import StageFlow.Proofs.Expr.Safety
