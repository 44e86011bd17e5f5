import StageFlow.Files.Disk
import StageFlow.Status

/-!
# Programs

A running program is a tree of questions to its surroundings: it ends with a result, or it asks for
something and goes on with the answer. Whoever runs a program answers its questions one at a time, and
may do other things in between, or never answer again. Programs are put together by `Program.bind`,
which is associative and has `Program.done` as its neutral element.
-/

namespace StageFlow

/-- What a program asks of its surroundings. -/
inductive Query where
  /-- Writes to a channel. -/
  | write (channel : Channel) (bytes : List UInt8)
  /-- Looks at the disk as it is. -/
  | look
  /-- Changes the disk, or finds out why not. -/
  | change (f : Disk → Except DiskFault Disk)
  /-- Waits for some milliseconds; `elsewhere` says that a program of its own does the waiting. -/
  | pause (ms : Nat) (elsewhere : Bool)
  /-- Interrupts whoever runs the program. -/
  | interrupt

/-- The answers to a question. -/
abbrev Query.Answer : Query → Type
  /- Whether somebody still reads the channel. -/
  | .write _ _ => Bool
  | .look => Disk
  | .change _ => Option DiskFault
  | .pause _ _ => Unit
  | .interrupt => Unit

/-- A program with its result. -/
inductive Program (α : Type) where
  | done (a : α)
  | ask (q : Query) (go : q.Answer → Program α)

namespace Program

variable {α β : Type}

/-- Goes on with a result. -/
def bind : Program α → (α → Program β) → Program β
  | .done a, f => f a
  | .ask q go, f => .ask q fun r => bind (go r) f

instance : Monad Program where
  pure := done
  bind := bind

/-- Asks a question for its answer. -/
def query (q : Query) : Program q.Answer := .ask q .done

/-- Writes bytes. -/
def write (c : Channel) (bytes : List UInt8) : Program Bool :=
  if bytes.isEmpty then .done true else query (.write c bytes)

/-- The disk as it is. -/
def disk : Program Disk := query .look

theorem done_bind (a : α) (f : α → Program β) : bind (.done a) f = f a := rfl

theorem bind_done (p : Program α) : bind p .done = p := by
  induction p with
  | done a => rfl
  | ask q go ih => exact congrArg (Program.ask q) (funext ih)

theorem bind_assoc {γ : Type} (p : Program α) (f : α → Program β) (g : β → Program γ) :
    bind (bind p f) g = bind p fun a => bind (f a) g := by
  induction p with
  | done a => rfl
  | ask q go ih => exact congrArg (Program.ask q) (funext ih)

end Program

/-- How a program ends: with a status of its own, or by a signal. -/
inductive ExitStatus where
  | code (n : Nat)
  | signal (n : Nat)
  deriving DecidableEq

namespace ExitStatus

/-- The status of its own, if the program ended so. -/
def code? : ExitStatus → Option Int
  | .code n => some n
  | .signal _ => none

/-- What a shell makes of an ending. -/
def number : ExitStatus → Nat
  | .code n => n
  | .signal n => 128 + n

end ExitStatus
end StageFlow
