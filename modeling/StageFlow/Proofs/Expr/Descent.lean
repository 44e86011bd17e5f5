import StageFlow.Proofs.Expr.Scanning
import StageFlow.Proofs.Expr.Soundness
import StageFlow.Proofs.Machine

/-!
# Descending one call at a time

Reading as a machine over the tokens of a text and its end (`Descent.step`). It has an index into the
tokens, a counter of the depth, and a stack of the calls that wait for the result of another call. An
index that is not there and a counter that would fall below zero stop the machine.

A step opens a call, goes on in one, or returns from one (`Descent.Moves`). Whichever it is, the index
stays within the tokens, the counter of the depth is what the open calls have charged, and a call opened
within another one has been entered at a later token or is of a function further down in the order
arguments, disjunction, conjunction, negation, comparison, primary (`Descent.Kept`). So a function that is
called within a call of its own has gone past a token (`Descent.Kept.later`).
-/

namespace StageFlow

namespace Descent

open Token Halt
open StageFlow.Expr (Series maxDepth)

/-! ## The machine -/

/-- The functions that call each other. -/
inductive Routine where
  | primary
  | negation
  | series (c : Series)
  /-- The arguments of the call at an offset. -/
  | arguments (start : Nat)

/-- What a series is a series of. -/
def operand : Series → Routine
  | .comparison => .primary
  | .conjunction => .negation
  | .disjunction => .series .conjunction

/-- What a call does with the result that it waits for. -/
inductive Frame where
  /-- The operand of a series joins what the series has so far; `links` counts the operators. -/
  | series (c : Series) (links : Nat) (join : Expr → Expr)
  | negated
  /-- A negation without `!`. -/
  | plain
  | paren (start : Nat)
  | call (name : String)
  | arguments (start : Nat) (before : List Expr)

/-- A call that waits for the result of another one. -/
structure Waiting where
  /-- The index of the token at which it was called. -/
  entered : Nat
  frame : Frame

/-- What is to be done next. -/
inductive Control where
  | begin
  | call (r : Routine)
  | back (e : Expr)
  | backArguments (es : List Expr)

structure State where
  index : Nat
  depth : Nat
  stack : List Waiting
  control : Control

namespace State

variable (s : State)

/-- Waits for the result of a call. -/
def opens (w : Waiting) (r : Routine) : State := { s with stack := w :: s.stack, control := .call r }

def returns (control : Control) : State := { s with control := control }

end State

section
variable (ms : List Mark) (s : State)

/-- The next token, none at the end of the text. -/
def peek : Except (Halt Expr) (Option Token) := do
  let m ← need ms[s.index]?
  .ok m.token?

/-- The offset of the next token or of the end. -/
def position : Except (Halt Expr) Nat := do
  let m ← need ms[s.index]?
  .ok m.offset

/-- Goes past the next token, but not past the end. -/
def advance : Except (Halt Expr) (Option Token × State) := do
  let t? ← peek ms s
  .ok (t?, if t?.isSome then { s with index := s.index + 1 } else s)

def enter : Except (Halt Expr) State :=
  if s.depth < maxDepth then .ok { s with depth := s.depth + 1 }
  else do
    let offset ← position ms s
    malformed offset .tooDeep

def leave (n : Nat) : Except (Halt Expr) State :=
  if n ≤ s.depth then .ok { s with depth := s.depth - n } else .error .outOfPlace

end

/-- Only a disjunction is entered at its call. -/
def charge : Series → Nat
  | .disjunction => 1
  | _ => 0

section
variable (ms : List Mark) (s : State)

def enterSeries : Series → Except (Halt Expr) State
  | .disjunction => enter ms s
  | _ => .ok s

/-- What a call does up to the next call or its return. -/
def call : Routine → Except (Halt Expr) State
  | .series c => do
    let s' ← enterSeries ms s c
    .ok (s'.opens ⟨s.index, .series c 0 id⟩ (operand c))
  | .negation => do
    match ← peek ms s with
    | some .not =>
      let (_, s') ← advance ms s
      let s'' ← enter ms s'
      .ok (s''.opens ⟨s.index, .negated⟩ .negation)
    | _ => .ok (s.opens ⟨s.index, .plain⟩ (.series .comparison))
  | .primary => do
    let start ← position ms s
    let (t?, s') ← advance ms s
    match t? with
    | some (.num n) => .ok (s'.returns (.back (.lit (.num n))))
    | some (.str x) => .ok (s'.returns (.back (.lit (.str x))))
    | some .true => .ok (s'.returns (.back (.lit (.bool true))))
    | some .false => .ok (s'.returns (.back (.lit (.bool false))))
    | some (.ident name) =>
      match ← peek ms s' with
      | some .lparen =>
        let (_, s'') ← advance ms s'
        .ok (s''.opens ⟨s.index, .call name⟩ (.arguments start))
      | _ => .ok (s'.returns (.back (.var name)))
    | some .lparen => .ok (s'.opens ⟨s.index, .paren start⟩ (.series .disjunction))
    | some t => malformed start (.noValue t)
    | none => malformed start .endOfText
  | .arguments start => do
    match ← peek ms s with
    | some .rparen =>
      let (_, s') ← advance ms s
      .ok (s'.returns (.backArguments []))
    | _ => .ok (s.opens ⟨s.index, .arguments start []⟩ (.series .disjunction))

/-- What a call does with the expression that it has waited for. -/
def resume (entered : Nat) (e : Expr) : Frame → Except (Halt Expr) State
  | .series c links join => do
    let t? ← peek ms s
    match t?.bind c.join? with
    | some next =>
      let (_, s') ← advance ms s
      let s'' ← enter ms s'
      .ok (s''.opens ⟨entered, .series c (links + 1) (next (join e))⟩ (operand c))
    | none =>
      let s' ← leave s links
      let s'' ← leave s' (charge c)
      .ok (s''.returns (.back (join e)))
  | .negated => do
    let s' ← leave s 1
    .ok (s'.returns (.back (.not e)))
  | .plain => .ok (s.returns (.back e))
  | .paren start => do
    let (t?, s') ← advance ms s
    match t? with
    | some .rparen => .ok (s'.returns (.back e))
    | _ => malformed start .openParen
  | .arguments start before => do
    let (t?, s') ← advance ms s
    match t? with
    | some .comma => .ok (s'.opens ⟨entered, .arguments start (before ++ [e])⟩ (.series .disjunction))
    | some .rparen => .ok (s'.returns (.backArguments (before ++ [e])))
    | _ => malformed start .openCall
  | .call _ => .error .outOfPlace

/-- What is done with the whole expression. -/
def finish (e : Expr) : Except (Halt Expr) State := do
  let t? ← peek ms s
  let offset ← position ms s
  match t? with
  | none => .error (.answer (.ok e))
  | some .rparen => malformed offset .strayClose
  | some t => malformed offset (.extra t)

/-- Goes on up to the next call or return, or stops. -/
def step : Except (Halt Expr) State :=
  match s.control, s.stack with
  | .begin, _ => do
    match ← peek ms s with
    | some _ => .ok (s.returns (.call (.series .disjunction)))
    | none => malformed 0 .empty
  | .call r, _ => call ms s r
  | .back e, [] => finish ms s e
  | .back e, w :: stack => resume ms { s with stack } w.entered e w.frame
  | .backArguments es, ⟨_, .call name⟩ :: stack => .ok { s with stack, control := .back (.call name es) }
  | .backArguments _, _ => .error .outOfPlace

end

/-- At the first token, with no call open. -/
def start : State := ⟨0, 0, [], .begin⟩

/-! ## Open calls -/

namespace Routine

/-- Each function has a rank, and only those of lower rank does it call without going past a token. -/
def rank : Routine → Nat
  | .primary => 0
  | .series .comparison => 1
  | .negation => 2
  | .series .conjunction => 3
  | .series .disjunction => 4
  | .arguments _ => 5

end Routine

namespace Frame

/-- The function that waits. -/
def routine : Frame → Routine
  | .series c _ _ => .series c
  | .negated | .plain => .negation
  | .paren _ | .call _ => .primary
  | .arguments start _ => .arguments start

/-- How far the function has raised the depth, and will lower it again. -/
def charge : Frame → Nat
  | .series c links _ => Descent.charge c + links
  | .negated => 1
  | _ => 0

end Frame

/-- A function has returned. -/
def Control.isBack : Control → Bool
  | .back _ | .backArguments _ => true
  | _ => false

/-- A function that has not returned yet. -/
structure Call where
  entered : Nat
  routine : Routine

/-- The call is of a function of lower rank, or has been entered at a later token. -/
def Deeper (inner outer : Call) : Prop :=
  outer.entered < inner.entered ∨
    outer.entered = inner.entered ∧ inner.routine.rank < outer.routine.rank

theorem Deeper.trans {a b c : Call} (h : Deeper a b) (h' : Deeper b c) : Deeper a c := by
  unfold Deeper at *
  omega

def Waiting.call (w : Waiting) : Call := ⟨w.entered, w.frame.routine⟩

/-- The open calls, the innermost first. -/
def State.calls (s : State) : List Call :=
  match s.control with
  | .call r => ⟨s.index, r⟩ :: s.stack.map Waiting.call
  | _ => s.stack.map Waiting.call

/-! ## Steps -/

/-- Behind every token there is another one or the end. -/
def Ended (ms : List Mark) : Prop := ∀ i m, ms[i]? = some m → m.token?.isSome → i + 1 < ms.length

theorem ended_marked (stop : Nat) (ts : List Placed) : Ended (marked stop ts) := by
  intro i m hm hsome
  unfold marked at hm ⊢
  rw [List.length_append, List.length_singleton]
  apply Nat.succ_lt_succ
  by_contra hlast
  rw [List.getElem?_append_right (Nat.le_of_not_lt hlast)] at hm
  obtain rfl := List.mem_singleton.mp (List.mem_of_getElem? hm)
  cases hsome

/-- The index moves on, within the tokens. -/
def Onward (ms : List Mark) (i i' : Nat) : Prop := i ≤ i' ∧ (i < ms.length → i' < ms.length)

/-- What a step can do to the index, to the depth and to the open calls. -/
inductive Moves (ms : List Mark) : State → State → Prop
  | begins {i d stack} : Moves ms ⟨i, d, stack, .begin⟩ ⟨i, d, stack, .call (.series .disjunction)⟩
  /-- A function calls another one. -/
  | opens {i i' d stack r} (f : Frame) (onward : Onward ms i i') (deeper : Deeper ⟨i', r⟩ ⟨i, f.routine⟩) :
      Moves ms ⟨i, d, stack, .call f.routine⟩ ⟨i', d + f.charge, ⟨i, f⟩ :: stack, .call r⟩
  /-- A function goes on past a token and calls another one. -/
  | reopens {i i' d n k stack f f' e r} (same : f'.routine = f.routine) (charge : f'.charge = f.charge + k)
      (onward : Onward ms i i') (past : i < i') :
      Moves ms ⟨i, d, ⟨n, f⟩ :: stack, .back e⟩ ⟨i', d + k, ⟨n, f'⟩ :: stack, .call r⟩
  /-- A function returns without having called another one. -/
  | returns {i i' d stack r control} (onward : Onward ms i i') (back : control.isBack) :
      Moves ms ⟨i, d, stack, .call r⟩ ⟨i', d, stack, control⟩
  /-- A function returns. -/
  | resumes {i i' d n stack f control control'} (onward : Onward ms i i') (waits : control.isBack)
      (back : control'.isBack) :
      Moves ms ⟨i, d + f.charge, ⟨n, f⟩ :: stack, control⟩ ⟨i', d, stack, control'⟩

variable {ms : List Mark} {s s' : State} {t? : Option Token} {n i d : Nat} {stack : List Waiting} {r : Routine}
  {e : Expr} {f : Frame}

theorem Onward.refl (ms : List Mark) (i : Nat) : Onward ms i i := ⟨Nat.le_refl i, id⟩

theorem Onward.trans {i₁ i₂ i₃ : Nat} (h : Onward ms i₁ i₂) (h' : Onward ms i₂ i₃) : Onward ms i₁ i₃ :=
  ⟨h.1.trans h'.1, h'.2 ∘ h.2⟩

theorem exists_of_peek (h : peek ms s = .ok t?) : ∃ m, ms[s.index]? = some m ∧ m.token? = t? := by
  obtain ⟨m, hm, h⟩ := bind_eq_ok.mp h
  cases hget : ms[s.index]? with
  | none =>
    rw [hget] at hm
    cases hm
  | some m' =>
    rw [hget] at hm
    cases hm
    cases h
    exact ⟨m, rfl, rfl⟩

/-- Going past a token stays within the tokens and the end. -/
theorem advance_onward (hms : Ended ms) (h : advance ms s = .ok (t?, s')) :
    ∃ i, s' = { s with index := i } ∧ Onward ms s.index i ∧ (t?.isSome → s.index < i) := by
  obtain ⟨found?, hpeek, h⟩ := bind_eq_ok.mp h
  obtain ⟨rfl, rfl⟩ := Prod.mk.inj (Except.ok.inj h)
  obtain ⟨m, hm, rfl⟩ := exists_of_peek hpeek
  by_cases hsome : m.token?.isSome
  · rw [if_pos hsome]
    exact ⟨s.index + 1, rfl, ⟨Nat.le_succ _, fun _ => hms _ m hm hsome⟩, fun _ => Nat.lt_succ_self _⟩
  · rw [if_neg hsome]
    exact ⟨s.index, rfl, .refl ms _, fun h => absurd h hsome⟩

theorem advance_past (hms : Ended ms) {t : Token} (hpeek : peek ms s = .ok (some t))
    (h : advance ms s = .ok (t?, s')) :
    ∃ i, s' = { s with index := i } ∧ Onward ms s.index i ∧ s.index < i := by
  obtain ⟨i, rfl, honward, hpast⟩ := advance_onward hms h
  obtain ⟨found?, hfound, h⟩ := bind_eq_ok.mp h
  obtain rfl := Except.ok.inj (hpeek.symm.trans hfound)
  obtain ⟨rfl, -⟩ := Prod.mk.inj (Except.ok.inj h)
  exact ⟨i, rfl, honward, hpast rfl⟩

theorem eq_of_enter (h : enter ms s = .ok s') : s' = { s with depth := s.depth + 1 } := by
  unfold enter at h
  split at h
  · exact (Except.ok.inj h).symm
  · obtain ⟨offset, -, h⟩ := bind_eq_ok.mp h
    cases h

theorem eq_of_enterSeries {c : Series} (h : enterSeries ms s c = .ok s') :
    s' = { s with depth := s.depth + charge c } := by
  cases c with
  | comparison | conjunction => exact (Except.ok.inj h).symm
  | disjunction => exact eq_of_enter h

theorem exists_of_leave (h : leave s n = .ok s') : ∃ d, s.depth = d + n ∧ s' = { s with depth := d } := by
  unfold leave at h
  split at h
  next hle => exact ⟨s.depth - n, (Nat.sub_add_cancel hle).symm, (Except.ok.inj h).symm⟩
  next => cases h

theorem rank_operand_lt (c : Series) : (operand c).rank < (Routine.series c).rank := by
  cases c <;> decide

theorem call_moves (hms : Ended ms) (h : call ms ⟨i, d, stack, .call r⟩ r = .ok s') :
    Moves ms ⟨i, d, stack, .call r⟩ s' := by
  cases r with
  | series c =>
    obtain ⟨entered, henter, h⟩ := bind_eq_ok.mp h
    cases h
    obtain rfl := eq_of_enterSeries henter
    exact .opens (.series c 0 id) (.refl ms i) (.inr ⟨rfl, rank_operand_lt c⟩)
  | negation =>
    obtain ⟨t?, hpeek, h⟩ := bind_eq_ok.mp h
    split at h
    · obtain ⟨⟨t?', s₁⟩, hadvance, h⟩ := bind_eq_ok.mp h
      obtain ⟨s₂, henter, h⟩ := bind_eq_ok.mp h
      cases h
      obtain ⟨i', rfl, honward, hpast⟩ := advance_past hms hpeek hadvance
      obtain rfl := eq_of_enter henter
      exact .opens .negated honward (.inl hpast)
    · cases h
      exact .opens .plain (.refl ms i) (.inr ⟨rfl, Nat.lt_succ_self _⟩)
  | primary =>
    obtain ⟨offset, -, h⟩ := bind_eq_ok.mp h
    obtain ⟨⟨t?, s₁⟩, hadvance, h⟩ := bind_eq_ok.mp h
    obtain ⟨i₁, rfl, honward, hpast⟩ := advance_onward hms hadvance
    dsimp only at h honward hpast
    split at h
    case h_1 | h_2 | h_3 | h_4 =>
      cases h
      exact .returns honward rfl
    case h_5 name =>
      obtain ⟨t?', hpeek, h⟩ := bind_eq_ok.mp h
      split at h
      · obtain ⟨⟨t?'', s₂⟩, hadvance', h⟩ := bind_eq_ok.mp h
        cases h
        obtain ⟨i₂, rfl, honward', hpast'⟩ := advance_past hms hpeek hadvance'
        exact .opens (.call name) (honward.trans honward') (.inl ((hpast rfl).trans hpast'))
      · cases h
        exact .returns honward rfl
    case h_6 =>
      cases h
      exact .opens (.paren offset) honward (.inl (hpast rfl))
    case h_7 | h_8 => cases h
  | arguments start =>
    obtain ⟨t?, hpeek, h⟩ := bind_eq_ok.mp h
    split at h
    · obtain ⟨⟨t?', s₁⟩, hadvance, h⟩ := bind_eq_ok.mp h
      cases h
      obtain ⟨i', rfl, honward, -⟩ := advance_onward hms hadvance
      exact .returns honward rfl
    · cases h
      exact .opens (.arguments start []) (.refl ms i) (.inr ⟨rfl, Nat.lt_succ_self _⟩)

theorem resume_moves (hms : Ended ms) (h : resume ms ⟨i, d, stack, .back e⟩ n e f = .ok s') :
    Moves ms ⟨i, d, ⟨n, f⟩ :: stack, .back e⟩ s' := by
  cases f with
  | series c links before =>
    obtain ⟨t?, hpeek, h⟩ := bind_eq_ok.mp h
    split at h
    next join hop =>
      obtain ⟨t, rfl, -⟩ := Option.bind_eq_some_iff.mp hop
      obtain ⟨⟨t?', s₁⟩, hadvance, h⟩ := bind_eq_ok.mp h
      obtain ⟨s₂, henter, h⟩ := bind_eq_ok.mp h
      cases h
      obtain ⟨i', rfl, honward, hpast⟩ := advance_past hms hpeek hadvance
      obtain rfl := eq_of_enter henter
      exact .reopens rfl rfl honward hpast
    next =>
      obtain ⟨s₁, hlinks, h⟩ := bind_eq_ok.mp h
      obtain ⟨s₂, hcharge, h⟩ := bind_eq_ok.mp h
      cases h
      obtain ⟨d₁, hd₁, rfl⟩ := exists_of_leave hlinks
      obtain ⟨d₂, hd₂, rfl⟩ := exists_of_leave hcharge
      dsimp only at hd₁ hd₂
      obtain rfl : d = d₂ + (Frame.series c links before).charge := by
        rw [hd₁, hd₂, Nat.add_assoc]
        rfl
      exact .resumes (.refl ms i) rfl rfl
  | negated =>
    obtain ⟨s₁, hleave, h⟩ := bind_eq_ok.mp h
    cases h
    obtain ⟨d₁, hd₁, rfl⟩ := exists_of_leave hleave
    dsimp only at hd₁
    subst hd₁
    exact .resumes (f := .negated) (.refl ms i) rfl rfl
  | plain =>
    cases h
    exact .resumes (f := .plain) (.refl ms i) rfl rfl
  | paren start =>
    obtain ⟨⟨t?, s₁⟩, hadvance, h⟩ := bind_eq_ok.mp h
    obtain ⟨i', rfl, honward, -⟩ := advance_onward hms hadvance
    dsimp only at h
    split at h
    · cases h
      exact .resumes (f := .paren start) honward rfl rfl
    · cases h
  | call name => cases h
  | arguments start before =>
    obtain ⟨⟨t?, s₁⟩, hadvance, h⟩ := bind_eq_ok.mp h
    obtain ⟨i', rfl, honward, hpast⟩ := advance_onward hms hadvance
    dsimp only at h
    split at h
    · cases h
      exact .reopens (k := 0) rfl rfl honward (hpast rfl)
    · cases h
      exact .resumes (f := .arguments start before) honward rfl rfl
    · cases h

theorem step_moves (hms : Ended ms) (h : step ms s = .ok s') : Moves ms s s' := by
  obtain ⟨i, d, stack, control⟩ := s
  cases control with
  | begin =>
    obtain ⟨t?, -, h⟩ := bind_eq_ok.mp h
    split at h
    · cases h
      exact .begins
    · cases h
  | call r => exact call_moves hms h
  | back e =>
    cases stack with
    | nil =>
      obtain ⟨t?, -, h⟩ := bind_eq_ok.mp h
      obtain ⟨offset, -, h⟩ := bind_eq_ok.mp h
      split at h <;> cases h
    | cons w stack => exact resume_moves hms h
  | backArguments es =>
    cases stack with
    | nil => cases h
    | cons w stack =>
      obtain ⟨n, f⟩ := w
      cases f with
      | call name =>
        cases h
        exact .resumes (f := .call name) (.refl ms i) rfl rfl
      | _ => cases h

/-! ## What every step keeps -/

/-- The index is within the tokens and the end, the depth is what the open calls have charged, and they
are nested in the order of the functions or of the tokens. -/
structure Kept (ms : List Mark) (s : State) : Prop where
  index_lt : s.index < ms.length
  depth_eq : s.depth = (s.stack.map fun w => w.frame.charge).sum
  entered_le : ∀ c ∈ s.calls, c.entered ≤ s.index
  deeper : s.calls.Pairwise Deeper
  begin_nil : s.control = .begin → s.stack = []

/-- A function that is called within a call of its own has gone past a token. -/
theorem Kept.later (h : Kept ms s) : s.calls.Pairwise fun inner outer =>
    inner.routine.rank = outer.routine.rank → outer.entered < inner.entered := by
  refine h.deeper.imp fun hdeeper hsame => ?_
  rcases hdeeper with hlt | ⟨-, hrank⟩
  · exact hlt
  · exact absurd hsame hrank.ne

theorem kept_start (h : 0 < ms.length) : Kept ms start := ⟨h, rfl, nofun, .nil, fun _ => rfl⟩

theorem calls_of_isBack {control : Control} (h : control.isBack) :
    State.calls ⟨i, d, stack, control⟩ = stack.map Waiting.call := by
  cases control with
  | begin | call => cases h
  | back | backArguments => rfl

theorem ne_begin_of_isBack {control : Control} (h : control.isBack) : control ≠ .begin := by
  rintro rfl
  cases h

theorem Moves.kept (h : Moves ms s s') (H : Kept ms s) : Kept ms s' := by
  obtain ⟨hindex, hdepth, hentered, hdeeper, hbegin⟩ := H
  cases h with
  | begins =>
    obtain rfl := hbegin rfl
    exact ⟨hindex, hdepth, List.forall_mem_singleton.mpr (Nat.le_refl _), List.pairwise_singleton _ _, nofun⟩
  | opens f onward deeper =>
    obtain ⟨hhead, htail⟩ := List.pairwise_cons.mp hdeeper
    refine ⟨onward.2 hindex, ?_, ?_, ?_, nofun⟩
    · exact (Nat.add_comm _ _).trans (congrArg _ hdepth)
    · exact List.forall_mem_cons.mpr ⟨Nat.le_refl _, fun c hc => (hentered c hc).trans onward.1⟩
    · refine List.pairwise_cons.mpr ⟨?_, hdeeper⟩
      exact List.forall_mem_cons.mpr ⟨deeper, fun c hc => deeper.trans (hhead c hc)⟩
  | @reopens i i' d n k stack f f' e r same charge onward past =>
    have hcall : Waiting.call ⟨n, f'⟩ = Waiting.call ⟨n, f⟩ := congrArg (Call.mk n) same
    have hcalls : State.calls ⟨i', d + k, ⟨n, f'⟩ :: stack, .call r⟩ =
        ⟨i', r⟩ :: State.calls ⟨i, d, ⟨n, f⟩ :: stack, .back e⟩ := by
      simp only [State.calls, List.map_cons, hcall]
    refine ⟨onward.2 hindex, ?_, ?_, ?_, nofun⟩
    · simp only [List.map_cons, List.sum_cons] at hdepth ⊢
      omega
    · rw [hcalls]
      exact List.forall_mem_cons.mpr ⟨Nat.le_refl _, fun c hc => (hentered c hc).trans onward.1⟩
    · rw [hcalls]
      refine List.pairwise_cons.mpr ⟨fun c hc => ?_, hdeeper⟩
      -- all open calls were entered up to the index that the function has gone past
      exact .inl ((hentered c hc).trans_lt past)
  | returns onward back =>
    refine ⟨onward.2 hindex, hdepth, ?_, ?_, fun h => absurd h (ne_begin_of_isBack back)⟩
    · rw [calls_of_isBack back]
      intro c hc
      exact (hentered c (List.mem_cons_of_mem _ hc)).trans onward.1
    · rw [calls_of_isBack back]
      exact hdeeper.tail
  | resumes onward waits back =>
    rw [calls_of_isBack waits] at hentered hdeeper
    refine ⟨onward.2 hindex, ?_, ?_, ?_, fun h => absurd h (ne_begin_of_isBack back)⟩
    · simp only [List.map_cons, List.sum_cons] at hdepth
      dsimp only
      omega
    · rw [calls_of_isBack back]
      intro c hc
      exact (hentered c (List.mem_cons_of_mem _ hc)).trans onward.1
    · rw [calls_of_isBack back]
      exact hdeeper.tail

theorem kept_of_reaches (hms : Ended ms) (hpos : 0 < ms.length) (h : Reaches (step ms) start s) : Kept ms s :=
  h.keeps (fun _ _ hkept hstep => (step_moves hms hstep).kept hkept) (kept_start hpos)

end Descent
end StageFlow
