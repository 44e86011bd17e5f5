import Mathlib
import StageFlow.Expr.Token

/-!
# Machines

A machine goes from state to state until it stops, with an answer or because it has asked for something
that is not there. `Reaches.keeps` carries an invariant along a run. Since a step has one outcome, a machine
that comes to an answer never asks for what is not there on the way (`Answers.ne_outOfPlace`).
-/

namespace StageFlow

/-- Why a machine stops. -/
inductive Halt (α : Type) where
  | answer (result : Except Malformed α)
  /-- What it has asked for is not there. -/
  | outOfPlace

namespace Halt

variable {α β γ : Type}

/-- Goes on with what is there. -/
def need : Option β → Except (Halt α) β
  | some b => .ok b
  | none => .error .outOfPlace

theorem need_some_bind (b : β) (f : β → Except (Halt α) γ) : (need (some b) >>= f) = f b := rfl

/-- Stops because the text is malformed at an offset. -/
def malformed (offset : Nat) (fault : Fault) : Except (Halt α) β :=
  .error (.answer (.error ⟨offset, fault⟩))

end Halt

section
variable {σ α : Type} (step : σ → Except (Halt α) σ)

/-- The machine comes from one state to the other. -/
def Reaches : σ → σ → Prop := Relation.ReflTransGen fun s s' => step s = .ok s'

/-- Wherever the machine comes from a state, something holds. -/
def Always (s : σ) (motive : σ → Prop) : Prop := ∀ s', Reaches step s s' → motive s'

/-- From a state the machine comes to a stop with an answer. -/
def Answers (s : σ) (result : Except Malformed α) : Prop :=
  ∃ s', Reaches step s s' ∧ step s' = .error (.answer result)

end

variable {σ α : Type} {step : σ → Except (Halt α) σ} {s s' s'' : σ} {result : Except Malformed α}

namespace Reaches

theorem refl : Reaches step s s := Relation.ReflTransGen.refl

theorem single (h : step s = .ok s') : Reaches step s s' := Relation.ReflTransGen.single h

theorem trans (H : Reaches step s s') (H' : Reaches step s' s'') : Reaches step s s'' :=
  Relation.ReflTransGen.trans H H'

/-- What every step keeps is kept by every run. -/
theorem keeps {motive : σ → Prop} (hstep : ∀ s s', motive s → step s = .ok s' → motive s')
    (H : Reaches step s s') (h : motive s) : motive s' := by
  induction H with
  | refl => exact h
  | tail _ hlast ih => exact hstep _ _ ih hlast

/-- Of two runs from one state one goes on from the other. -/
theorem total (H : Reaches step s s') (H' : Reaches step s s'') :
    Reaches step s' s'' ∨ Reaches step s'' s' := by
  refine Relation.ReflTransGen.total_of_right_unique (fun _ _ _ h₁ h₂ => ?_) H H'
  exact Except.ok.inj (h₁.symm.trans h₂)

/-- A machine that has stopped stays where it is. -/
theorem eq_of_stopped {halt : Halt α} (h : step s = .error halt) (H : Reaches step s s') : s' = s := by
  rcases Relation.ReflTransGen.cases_head H with heq | ⟨s₁, hstep, -⟩
  · exact heq.symm
  · rw [h] at hstep
    cases hstep

end Reaches

namespace Answers

theorem stop (h : step s = .error (.answer result)) : Answers step s result := ⟨s, .refl, h⟩

theorem of_reaches (H : Reaches step s s') (h : Answers step s' result) : Answers step s result := by
  obtain ⟨last, hlast, hstop⟩ := h
  exact ⟨last, H.trans hlast, hstop⟩

theorem of_step (h : step s = .ok s') (H : Answers step s' result) : Answers step s result :=
  H.of_reaches (.single h)

/-- A machine that comes to an answer comes to it from wherever it has got. -/
theorem reaches (h : Answers step s result) (H : Reaches step s s') :
    ∃ last, Reaches step s' last ∧ step last = .error (.answer result) := by
  obtain ⟨last, hlast, hstop⟩ := h
  rcases hlast.total H with hback | hon
  · obtain rfl := hback.eq_of_stopped hstop
    exact ⟨s', .refl, hstop⟩
  · exact ⟨last, hon, hstop⟩

/-- On the way to an answer the machine never asks for what is not there. -/
theorem ne_outOfPlace (h : Answers step s result) (H : Reaches step s s') :
    step s' ≠ .error .outOfPlace := by
  intro hlost
  obtain ⟨last, hlast, hstop⟩ := h.reaches H
  obtain rfl := hlast.eq_of_stopped hlost
  rw [hlost] at hstop
  cases hstop

end Answers
end StageFlow
