import StageFlow.CommandLine.Context
import StageFlow.Proofs.Failure

/-!
# Layers of contexts

What a context binds. The layers of a context are filled by calls in any order, and a name may occur in
several of them and many times in one. Of the layers that mention a name the highest one counts, and of
its entries for the name the last one; so it does not matter how calls that fill different layers are
interleaved.

* `lastOf`: the last entry of a name.
* `Layers.Call`: calls that fill layers, and what they give to each of them.
* `Invocation.Sets`: what an invocation makes of its context.
* `contexts_layered`: what contexts bind, for all calls and all invocations.
-/

namespace StageFlow

/-! ## Last entries -/

section
variable {α β : Type} {k n : String} {v : α} {es : List (String × α)}

/-- The value of the last entry for a name. -/
def lastOf (k : String) (es : List (String × α)) : Option α := es.reverse.lookup k

/-- Entries under names with a prefix. -/
def prefixed (front : String) (es : List (String × α)) : List (String × α) :=
  es.map fun e => (front ++ e.1, e.2)

theorem lastOf_cons (k : String) (e : String × α) (es : List (String × α)) :
    lastOf k (e :: es) = (lastOf k es).or (if e.1 = k then some e.2 else none) := by
  have hlast : [e].lookup k = if e.1 = k then some e.2 else none := by
    rw [List.lookup_cons]
    by_cases h : e.1 = k
    · rw [if_pos h, beq_iff_eq.mpr h.symm]
    · rw [if_neg h, beq_eq_false_iff_ne.mpr (Ne.symm h)]
      rfl
  rw [lastOf, List.reverse_cons, List.lookup_append, hlast, lastOf]

theorem lastOf_append (k : String) (es es' : List (String × α)) :
    lastOf k (es ++ es') = (lastOf k es').or (lastOf k es) := by
  rw [lastOf, List.reverse_append, List.lookup_append, lastOf, lastOf]

theorem lastOf_map (k : String) (f : α → β) (es : List (String × α)) :
    lastOf k (es.map fun e => (e.1, f e.2)) = (lastOf k es).map f := by
  induction es with
  | nil => rfl
  | cons e es ih =>
    rw [List.map_cons, lastOf_cons, lastOf_cons, ih, Option.map_or]
    split <;> rfl

theorem lastOf_prefixed (front n : String) (es : List (String × α)) :
    lastOf (front ++ n) (prefixed front es) = lastOf n es := by
  induction es with
  | nil => rfl
  | cons e es ih =>
    rw [prefixed, List.map_cons, ← prefixed, lastOf_cons, lastOf_cons, ih]
    simp only [String.append_right_inj]

theorem isSome_lastOf_iff : (lastOf k es).isSome ↔ ∃ e ∈ es, e.1 = k := by
  induction es with
  | nil => simp [lastOf]
  | cons e es ih =>
    rw [lastOf_cons, Option.isSome_or, Bool.or_eq_true, ih, List.exists_mem_cons_iff, or_comm]
    by_cases h : e.1 = k <;> simp [h]

end

/-! ## Bindings and labels -/

namespace Context

theorem get?_bindAll (c : Context) (vs : List (String × Value)) (k : String) :
    (c.bindAll vs).get? k = (lastOf k vs).or (c.get? k) := by
  induction vs generalizing c with
  | nil => rfl
  | cons v vs ih =>
    have hbind : (c.bind v.1 v.2).get? k = (if v.1 = k then some v.2 else none).or (c.get? k) := by
      refine (Table.get?_insert c.values v.1 k v.2).trans ?_
      split <;> rfl
    rw [bindAll, List.foldl_cons, ← bindAll, ih, lastOf_cons, Option.or_assoc, hbind]

theorem get?_addLabels (c : Context) (labels : List String) (k : String) :
    (c.addLabels labels).get? k = c.get? k := by
  induction labels generalizing c with
  | nil => rfl
  | cons label labels ih => exact ih (c.addLabel label)

theorem hasLabel_bindAll (c : Context) (vs : List (String × Value)) (label : String) :
    (c.bindAll vs).hasLabel label = c.hasLabel label := by
  induction vs generalizing c with
  | nil => rfl
  | cons v vs ih => exact ih (c.bind v.1 v.2)

theorem hasLabel_addLabels_iff {c : Context} {labels : List String} {label : String} :
    (c.addLabels labels).hasLabel label ↔ label ∈ labels ∨ c.hasLabel label := by
  induction labels generalizing c with
  | nil => exact ⟨.inr, fun h => h.resolve_left nofun⟩
  | cons l labels ih =>
    have hadd : (c.addLabel l).hasLabel label ↔ label = l ∨ c.hasLabel label := by
      simp only [hasLabel, addLabel, Table.contains, Table.get?_insert]
      by_cases h : l = label
      · simp [h]
      · simp [h, Ne.symm h]
    rw [addLabels, List.foldl_cons, ← addLabels, ih, hadd, List.mem_cons, or_left_comm,
      or_assoc]

end Context

/-! ## Calls -/

namespace Layers

/-- The layers that calls fill; labels count as one of their own. -/
inductive Layer where
  | platform | env | vars | inputs | overrides | labels
  deriving DecidableEq

/-- A call that fills a layer. -/
inductive Call where
  | platform
  | env (es : List (String × String))
  | rawEnv (es : List RawEntry)
  | vars (vs : List (String × Value))
  | inputs (vs : List (String × Value))
  | overrides (vs : List (String × Value))
  | labels (labels : List String)

namespace Call

def apply (l : Layers) : Call → Layers
  | platform => l.withPlatform
  | env es => l.withEnv es
  | rawEnv es => l.withRawEnv es
  | vars vs => l.withVars vs
  | inputs vs => l.withInputs vs
  | overrides vs => l.withOverrides vs
  | labels ls => l.withLabels ls

def layer : Call → Layer
  | platform => .platform
  | env _ | rawEnv _ => .env
  | vars _ => .vars
  | inputs _ => .inputs
  | overrides _ => .overrides
  | labels _ => .labels

def isPlatform : Call → Bool
  | platform => true
  | _ => false

/-- What a call gives to the environment. Entries that are not valid UTF-8 are left out. -/
def givenEnv : Call → List (String × String)
  | env es => es
  | rawEnv es => es.filterMap decodeEntry?
  | _ => []

def givenVars : Call → List (String × Value)
  | vars vs => vs
  | _ => []

def givenInputs : Call → List (String × Value)
  | inputs vs => vs
  | _ => []

def givenOverrides : Call → List (String × Value)
  | overrides vs => vs
  | _ => []

def givenLabels : Call → List String
  | labels ls => ls
  | _ => []

end Call

open Call

/-- The layers after calls. -/
def after (calls : List Call) : Layers := calls.foldl Call.apply {}

/-- What calls bind a name to: the last entry of the highest layer that mentions it. -/
def bound? [Platform] (calls : List Call) (k : String) : Option Value :=
  (lastOf k (calls.flatMap givenOverrides)).or <|
  (lastOf k (prefixed "inputs." (calls.flatMap givenInputs))).or <|
  (lastOf k (calls.flatMap givenVars)).or <|
  ((lastOf k (prefixed "env." (calls.flatMap givenEnv))).map .str).or <|
  if calls.any isPlatform then (lastOf k platformFacts).map .str else none

theorem foldl_apply (calls : List Call) (l : Layers) : calls.foldl Call.apply l = {
    platform := l.platform || calls.any isPlatform
    env := l.env ++ calls.flatMap givenEnv
    vars := l.vars ++ calls.flatMap givenVars
    inputs := l.inputs ++ calls.flatMap givenInputs
    overrides := l.overrides ++ calls.flatMap givenOverrides
    labels := l.labels ++ calls.flatMap givenLabels } := by
  induction calls generalizing l with
  | nil => simp
  | cons call calls ih =>
    rw [List.foldl_cons, ih]
    cases call <;>
      simp [Call.apply, isPlatform, givenEnv, givenVars, givenInputs, givenOverrides, givenLabels,
        withPlatform, withEnv, withRawEnv, withVars, withInputs, withOverrides, withLabels]

theorem after_eq (calls : List Call) : after calls = {
    platform := calls.any isPlatform
    env := calls.flatMap givenEnv
    vars := calls.flatMap givenVars
    inputs := calls.flatMap givenInputs
    overrides := calls.flatMap givenOverrides
    labels := calls.flatMap givenLabels } :=
  foldl_apply calls {}

theorem get?_build [Platform] (l : Layers) (k : String) : l.build.get? k = lastOf k l.bindings := by
  rw [build, Context.get?_addLabels, Context.get?_bindAll]
  exact Option.or_none

theorem get?_build_after [Platform] (calls : List Call) (k : String) :
    (after calls).build.get? k = bound? calls k := by
  have hfacts : lastOf k (if calls.any isPlatform then
      platformFacts.map fun (e : String × String) => (e.1, Value.str e.2) else []) =
      if calls.any isPlatform then (lastOf k platformFacts).map .str else none := by
    split
    · exact lastOf_map k Value.str platformFacts
    · rfl
  have henv (es : List (String × String)) : lastOf k (es.map fun e => ("env." ++ e.1, Value.str e.2)) =
      (lastOf k (prefixed "env." es)).map .str := by
    rw [← lastOf_map k Value.str, prefixed, List.map_map]
    rfl
  rw [get?_build, after_eq, bindings, lastOf_append, lastOf_append, lastOf_append, lastOf_append, bound?,
    ← hfacts, ← henv]
  rfl

theorem hasLabel_build_after_iff [Platform] {calls : List Call} {label : String} :
    (after calls).build.hasLabel label ↔ (∃ ls, .labels ls ∈ calls ∧ label ∈ ls) ∨
      .platform ∈ calls ∧ ∃ fact ∈ platformFacts, fact.2 = label := by
  have hplatform : calls.any isPlatform ↔ .platform ∈ calls := by
    rw [List.any_eq_true]
    refine ⟨fun ⟨call, hcall, h⟩ => ?_, fun h => ⟨_, h, rfl⟩⟩
    cases call with
    | platform => exact hcall
    | _ => cases h
  have hlabels : label ∈ calls.flatMap givenLabels ↔ ∃ ls, .labels ls ∈ calls ∧ label ∈ ls := by
    rw [List.mem_flatMap]
    refine ⟨fun ⟨call, hcall, h⟩ => ?_, fun ⟨ls, hcall, h⟩ => ⟨_, hcall, h⟩⟩
    cases call with
    | labels ls => exact ⟨ls, hcall, h⟩
    | _ => cases h
  have hfacts (enabled : Bool) : label ∈ (if enabled then platformFacts.map (·.2) else []) ↔
      enabled ∧ ∃ fact ∈ platformFacts, fact.2 = label := by
    cases enabled <;> simp
  have hempty : Context.empty.hasLabel label = false := rfl
  rw [build, Context.hasLabel_addLabels_iff, Context.hasLabel_bindAll, hempty, after_eq, allLabels,
    List.mem_append, hlabels, hfacts, hplatform, Bool.false_eq_true, or_false, or_comm]

theorem flatMap_filter_layer {α : Type} {f : Call → List α} (layer : Layer)
    (h : ∀ call, call.layer ≠ layer → f call = []) (calls : List Call) :
    calls.flatMap f = (calls.filter (·.layer = layer)).flatMap f := by
  induction calls with
  | nil => rfl
  | cons call calls ih =>
    by_cases hlayer : call.layer = layer
    · rw [List.filter_cons, if_pos (decide_eq_true hlayer), List.flatMap_cons, List.flatMap_cons, ih]
    · rw [List.filter_cons, if_neg (by simpa using hlayer), List.flatMap_cons, h call hlayer, ih]
      rfl

/-- Only the order of the calls that fill the same layer matters. -/
theorem after_congr {calls calls' : List Call}
    (h : ∀ layer : Layer, calls.filter (·.layer = layer) = calls'.filter (·.layer = layer)) :
    after calls = after calls' := by
  have hgiven {α : Type} {f : Call → List α} (layer : Layer)
      (hf : ∀ call, call.layer ≠ layer → f call = []) : calls.flatMap f = calls'.flatMap f := by
    rw [flatMap_filter_layer layer hf, h layer, ← flatMap_filter_layer layer hf]
  have hplatform (cs : List Call) :
      cs.any isPlatform = !(cs.filter (·.layer = Layer.platform)).isEmpty := by
    induction cs with
    | nil => rfl
    | cons call cs ih => cases call <;> simp [isPlatform, layer, ih]
  have henv : calls.flatMap givenEnv = calls'.flatMap givenEnv := hgiven .env fun call hne => by
    cases call <;> first | rfl | exact (hne rfl).elim
  have hvars : calls.flatMap givenVars = calls'.flatMap givenVars := hgiven .vars fun call hne => by
    cases call <;> first | rfl | exact (hne rfl).elim
  have hinputs : calls.flatMap givenInputs = calls'.flatMap givenInputs :=
    hgiven .inputs fun call hne => by cases call <;> first | rfl | exact (hne rfl).elim
  have hoverrides : calls.flatMap givenOverrides = calls'.flatMap givenOverrides :=
    hgiven .overrides fun call hne => by cases call <;> first | rfl | exact (hne rfl).elim
  have hlabels : calls.flatMap givenLabels = calls'.flatMap givenLabels :=
    hgiven .labels fun call hne => by cases call <;> first | rfl | exact (hne rfl).elim
  rw [after_eq, after_eq, hplatform, hplatform, h .platform, henv, hvars, hinputs, hoverrides, hlabels]

end Layers

/-! ## Invocations -/

open Layers (Call)

/-- What texts assign, in order. -/
def assignments (texts : List String) : List (String × Value) :=
  texts.filterMap fun text => (parseAssignment text).toOption

theorem assignment_eq_ok_iff {text : String} {a : String × Value} :
    assignment text = .ok a ↔ parseAssignment text = .ok a := by
  rw [assignment]
  split <;> simp_all

theorem assignments_of_forall₂ {texts : List String} {as : List (String × Value)}
    (h : List.Forall₂ (fun text a => parseAssignment text = .ok a) texts as) :
    assignments texts = as := by
  induction h with
  | nil => rfl
  | cons ha _ ih =>
    rw [assignments, List.filterMap_cons, ha, ← assignments, ih]
    rfl

namespace Invocation

variable {i : Invocation} {c : Config} {env : List RawEntry} {ctx : Context}

/-- All assignments can be read, and all inputs are declared. -/
structure Readable (i : Invocation) (c : Config) : Prop where
  inputs : ∀ text ∈ i.inputs, ∃ a, parseAssignment text = .ok a ∧ c.inputs.contains a.1
  set : ∀ text ∈ i.set, ∃ a, parseAssignment text = .ok a

/-- The calls that fill the layers of an invocation. -/
def calls (i : Invocation) (c : Config) (env : List RawEntry) : List Call :=
  [.platform, .rawEnv env, .vars c.vars.entries,
    .inputs (c.inputDefaults ++ assignments i.inputs), .overrides (assignments i.set),
    .labels (c.options.labels ++ i.labels)]

/-- What a name is bound to without inputs and what is set. -/
def configured? [Platform] (c : Config) (env : List RawEntry) (k : String) : Option Value :=
  (lastOf k c.vars.entries).or <|
  ((lastOf k (prefixed "env." (env.filterMap Layers.decodeEntry?))).map .str).or <|
  (lastOf k platformFacts).map .str

/-- What a name is bound to in the context of an invocation. -/
def value? [Platform] (i : Invocation) (c : Config) (env : List RawEntry) (k : String) : Option Value :=
  (lastOf k (assignments i.set)).or <|
  (lastOf k (prefixed "inputs." (c.inputDefaults ++ assignments i.inputs))).or (configured? c env k)

/-- What an invocation makes of its context: what is given to an input counts before its default, and
what is set before everything else. -/
structure Sets [Platform] (i : Invocation) (c : Config) (env : List RawEntry) (ctx : Context) : Prop where
  get : ∀ k, ctx.get? k = i.value? c env k
  set : ∀ k v, lastOf k (assignments i.set) = some v → ctx.get? k = some v
  input : ∀ n v, lastOf n (assignments i.inputs) = some v →
    lastOf ("inputs." ++ n) (assignments i.set) = none → ctx.get? ("inputs." ++ n) = some v
  default : ∀ n v, lastOf n c.inputDefaults = some v → lastOf n (assignments i.inputs) = none →
    lastOf ("inputs." ++ n) (assignments i.set) = none → ctx.get? ("inputs." ++ n) = some v
  labels : ∀ label, ctx.hasLabel label ↔ label ∈ c.options.labels ∨ label ∈ i.labels ∨
    ∃ fact ∈ platformFacts, fact.2 = label

theorem inputAssignment_eq_ok_iff {text : String} {a : String × Value} :
    c.inputAssignment text = .ok a ↔ parseAssignment text = .ok a ∧ c.inputs.contains a.1 := by
  rw [Config.inputAssignment, bind_eq_ok]
  constructor
  · rintro ⟨a', ha', h⟩
    split at h
    next hdeclared =>
      cases h
      exact ⟨assignment_eq_ok_iff.mp ha', hdeclared⟩
    next => cases h
  · rintro ⟨ha, hdeclared⟩
    refine ⟨a, assignment_eq_ok_iff.mpr ha, ?_⟩
    rw [if_pos hdeclared]
    rfl

theorem context_eq_ok_iff [Platform] : i.context c env = .ok ctx ↔
    i.Readable c ∧ ctx = (Layers.after (i.calls c env)).build := by
  simp only [context, layers, bind_eq_ok, mapM_eq_ok_iff, inputAssignment_eq_ok_iff,
    assignment_eq_ok_iff]
  constructor
  · rintro ⟨l, ⟨inputs, hinputs, overrides, hoverrides, hl⟩, hctx⟩
    cases hl
    cases hctx
    refine ⟨⟨exists_forall₂_iff.mp ⟨inputs, hinputs⟩, exists_forall₂_iff.mp ⟨overrides, hoverrides⟩⟩, ?_⟩
    rw [calls, assignments_of_forall₂ hoverrides,
      assignments_of_forall₂ (hinputs.imp fun _ _ h => h.1)]
    rfl
  · rintro ⟨⟨hinputs, hset⟩, rfl⟩
    obtain ⟨inputs, hinputs⟩ := exists_forall₂_iff.mpr hinputs
    obtain ⟨overrides, hoverrides⟩ := exists_forall₂_iff.mpr hset
    refine ⟨_, ⟨inputs, hinputs, overrides, hoverrides, rfl⟩, ?_⟩
    rw [calls, assignments_of_forall₂ hoverrides,
      assignments_of_forall₂ (hinputs.imp fun _ _ h => h.1)]
    rfl

theorem get?_context [Platform] (i : Invocation) (c : Config) (env : List RawEntry) (k : String) :
    (Layers.after (i.calls c env)).build.get? k = i.value? c env k := by
  rw [Layers.get?_build_after, Layers.bound?]
  simp only [calls, List.flatMap_cons, List.flatMap_nil, Call.givenOverrides, Call.givenInputs,
    Call.givenVars, Call.givenEnv, List.nil_append, List.append_nil]
  rfl

theorem value?_input [Platform] {n : String} (hset : lastOf ("inputs." ++ n) (assignments i.set) = none) :
    i.value? c env ("inputs." ++ n) = (lastOf n (assignments i.inputs)).or
      ((lastOf n c.inputDefaults).or (configured? c env ("inputs." ++ n))) := by
  rw [value?, hset, Option.none_or, lastOf_prefixed, lastOf_append, Option.or_assoc]

theorem sets_of_context [Platform] (h : i.context c env = .ok ctx) : i.Sets c env ctx := by
  obtain ⟨-, rfl⟩ := context_eq_ok_iff.mp h
  have hget := get?_context i c env
  refine ⟨hget, ?_, ?_, ?_, fun label => ?_⟩
  · intro k v hset
    rw [hget, value?, hset, Option.some_or]
  · intro n v hgiven hset
    rw [hget, value?_input hset, hgiven, Option.some_or]
  · intro n v hdefault hgiven hset
    rw [hget, value?_input hset, hgiven, hdefault, Option.none_or, Option.some_or]
  · rw [Layers.hasLabel_build_after_iff, ← or_assoc, ← List.mem_append]
    have hlabels : (∃ ls, Call.labels ls ∈ i.calls c env ∧ label ∈ ls) ↔
        label ∈ c.options.labels ++ i.labels := by
      simp [calls]
    have hplatform : Call.platform ∈ i.calls c env := List.mem_cons_self
    rw [hlabels, and_iff_right hplatform]

end Invocation

/-- Contexts are made of layers: a name is bound to the last entry of the highest layer that mentions
it, for all calls that fill the layers and in whatever order calls for different layers are made. So in
the context of an invocation what is given to an input counts before its default, and what is set before
everything else. -/
theorem contexts_layered [Platform] :
    (∀ calls k, (Layers.after calls).build.get? k = Layers.bound? calls k) ∧
    (∀ calls label, (Layers.after calls).build.hasLabel label ↔
      (∃ ls, .labels ls ∈ calls ∧ label ∈ ls) ∨
        .platform ∈ calls ∧ ∃ fact ∈ platformFacts, fact.2 = label) ∧
    (∀ calls calls' : List Call,
      (∀ layer : Layers.Layer,
        calls.filter (·.layer = layer) = calls'.filter (·.layer = layer)) →
      (Layers.after calls).build = (Layers.after calls').build) ∧
    ∀ (i : Invocation) (c : Config) (env : List RawEntry),
      ((∃ ctx, i.context c env = .ok ctx) ↔ i.Readable c) ∧
      ∀ ctx, i.context c env = .ok ctx → i.Sets c env ctx := by
  refine ⟨Layers.get?_build_after, fun _ _ => Layers.hasLabel_build_after_iff, ?_, ?_⟩
  · intro calls calls' h
    rw [Layers.after_congr h]
  · intro i c env
    refine ⟨?_, fun ctx => Invocation.sets_of_context⟩
    constructor
    · rintro ⟨ctx, h⟩
      exact (Invocation.context_eq_ok_iff.mp h).1
    · intro h
      exact ⟨_, Invocation.context_eq_ok_iff.mpr ⟨h, rfl⟩⟩

/-- Calls for layers whose names collide. -/
def collidingCalls : List Call :=
  [.overrides [("os", .str "plan9")], .vars [("env.X", .str "var")], .platform,
    .inputs [("x", .str "first")], .env [("X", "env")], .inputs [("x", .str "last")]]

/-- The same calls, layer by layer. -/
def sortedCalls : List Call :=
  [.platform, .env [("X", "env")], .vars [("env.X", .str "var")], .inputs [("x", .str "first")],
    .inputs [("x", .str "last")], .overrides [("os", .str "plan9")]]

/-- A configuration that declares an input. -/
def deployConfig : Config where
  options := {}
  vars := Table.ofList [("env.X", .str "var")]
  inputs := Table.ofList [("x", { default := some (.str "default") })]
  actions := Table.empty
  stages := Table.empty

/-- An invocation that gives a value to the input, and sets what two other layers bind. -/
def deployInvocation : Invocation where
  inputs := ["x=given"]
  set := ["env.X=set", "os=plan9"]

section
attribute [local instance] Platform.linux

theorem collidingCalls_layered :
    (Layers.after collidingCalls).build = (Layers.after sortedCalls).build ∧
    ∃ ctx, deployInvocation.context deployConfig [("X".toUTF8, "env".toUTF8)] = .ok ctx ∧
      deployInvocation.Sets deployConfig [("X".toUTF8, "env".toUTF8)] ctx ∧
      ctx.get? "inputs.x" = some (.str "given") ∧ ctx.get? "env.X" = some (.str "set") := by
  obtain ⟨-, -, hcongr, hinvocation⟩ := contexts_layered
  obtain ⟨hreadable, hsets⟩ := hinvocation deployInvocation deployConfig [("X".toUTF8, "env".toUTF8)]
  have hinputs : parseAssignment "x=given" = .ok ("x", .str "given") := by cbv
  have henv : parseAssignment "env.X=set" = .ok ("env.X", .str "set") := by cbv
  have hos : parseAssignment "os=plan9" = .ok ("os", .str "plan9") := by cbv
  obtain ⟨ctx, hctx⟩ := hreadable.mpr {
    inputs := List.forall_mem_singleton.mpr ⟨_, hinputs, rfl⟩
    set := List.forall_mem_cons.mpr ⟨⟨_, henv⟩, List.forall_mem_singleton.mpr ⟨_, hos⟩⟩ }
  have hset : assignments deployInvocation.set = [("env.X", .str "set"), ("os", .str "plan9")] := by
    simp [assignments, deployInvocation, henv, hos, Except.toOption]
  have hgiven : assignments deployInvocation.inputs = [("x", .str "given")] := by
    simp [assignments, deployInvocation, hinputs, Except.toOption]
  refine ⟨hcongr _ _ fun layer => by cases layer <;> rfl, ctx, hctx, hsets ctx hctx, ?_, ?_⟩
  · exact (hsets ctx hctx).input "x" _ (hgiven ▸ rfl) (hset ▸ by decide)
  · exact (hsets ctx hctx).set "env.X" _ (hset ▸ rfl)

end

end StageFlow
