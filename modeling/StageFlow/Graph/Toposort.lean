import StageFlow.Graph.Cycle
import StageFlow.Row

/-!
# Topological sorts and levels

Graphs on the places below `n` are given by the list of successors of each place. A topological sort puts
every place before its successors, or finds that this cannot be done since there is a cycle. Read
backwards, its order tells in one pass how long the longest chain below each place is
(`StageGraph.levelsAlong_eq`).
-/

namespace StageFlow

/-- The length of the longest chain below a step, given those of the steps that it requires. -/
def chainAbove (levels : List Nat) : Nat := levels.foldl (fun m l => max m (l + 1)) 0

/-- Every place is listed, before all the places that follow it in a graph. -/
structure TopDown {n : Nat} (next : Fin n → List (Fin n)) (order : List (Fin n)) : Prop where
  all : ∀ i, i ∈ order
  before : ∀ pre i post, order = pre ++ i :: post → next i ⊆ post

/-- A topological sort. -/
class Toposort where
  /-- All places in order, or else a place on a cycle. -/
  sort {n : Nat} (next : Fin n → List (Fin n)) : Except (Fin n) (List (Fin n))
  sorted {n : Nat} {next : Fin n → List (Fin n)} {order : List (Fin n)} :
    sort next = .ok order → TopDown next order
  cyclic {n : Nat} {next : Fin n → List (Fin n)} {i : Fin n} :
    sort next = .error i → Relation.TransGen (Cycle.Edge next) i i

namespace StageGraph

variable {n : Nat} {deps : Row (List (Fin n)) n} {order : List (Fin n)}

/-- Every place is listed, after all the places that follow it in a graph. -/
structure BottomUp {n : Nat} (next : Fin n → List (Fin n)) (order : List (Fin n)) : Prop where
  all : ∀ i, i ∈ order
  before : ∀ pre i post, order = pre ++ i :: post → next i ⊆ pre

/-- The levels found in one pass over some places. -/
def levelsAlong {n : Nat} (deps : Row (List (Fin n)) n) (order : List (Fin n)) : Row Nat n :=
  order.foldl (fun levels i => levels.put i (chainAbove ((deps.get i).map levels.get)))
    (Vector.replicate n 0)

/-- A pass goes on from places whose levels have been found to further ones, each of which comes after
the places that follow it. -/
theorem foldl_levels (pre : List (Fin n)) {levels : Row Nat n}
    (hclosed : ∀ i ∈ pre, deps.get i ⊆ pre)
    (hlevels : ∀ i ∈ pre, levels.get i = chainAbove ((deps.get i).map levels.get))
    (hbefore : ∀ mid i post, order = mid ++ i :: post → deps.get i ⊆ pre ++ mid) :
    ∀ i ∈ pre ++ order,
      (order.foldl (fun levels i => levels.put i (chainAbove ((deps.get i).map levels.get))) levels).get i =
        chainAbove ((deps.get i).map (order.foldl
          (fun levels i => levels.put i (chainAbove ((deps.get i).map levels.get))) levels).get) := by
  induction order generalizing pre levels with
  | nil => simpa using hlevels
  | cons j order ih =>
    have hj : deps.get j ⊆ pre := by simpa using hbefore [] j order rfl
    -- what has been found stays as it is
    have hkept : ∀ d ∈ pre,
        (levels.put j (chainAbove ((deps.get j).map levels.get))).get d = levels.get d := by
      intro d hd
      rw [Row.get_put]
      split
      next hdj => rw [← hdj]; exact (hlevels j (hdj ▸ hd)).symm
      next => rfl
    have hboth : ∀ i ∈ pre ++ [j], deps.get i ⊆ pre ∧
        (levels.put j (chainAbove ((deps.get j).map levels.get))).get i =
          chainAbove ((deps.get i).map levels.get) := by
      intro i hi
      rcases List.mem_append.mp hi with hi | hi
      · exact ⟨hclosed i hi, (hkept i hi).trans (hlevels i hi)⟩
      · obtain rfl := List.mem_singleton.mp hi
        exact ⟨hj, by rw [Row.get_put, if_pos rfl]⟩
    rw [List.foldl_cons, ← List.singleton_append, ← List.append_assoc]
    refine ih (pre ++ [j]) (fun i hi => ?_) (fun i hi => ?_) fun mid i post hsplit => ?_
    · exact List.Subset.trans (hboth i hi).1 (List.subset_append_left ..)
    · rw [(hboth i hi).2]
      exact congrArg chainAbove (List.map_congr_left fun d hd => (hkept d ((hboth i hi).1 hd)).symm)
    · simpa using hbefore (j :: mid) i post (by rw [hsplit]; rfl)

/-- In one pass over all places, each after the places that follow it, every place gets one more than the
highest level among those. -/
theorem levelsAlong_eq (h : BottomUp deps.get order) (i : Fin n) :
    (levelsAlong deps order).get i = chainAbove ((deps.get i).map (levelsAlong deps order).get) :=
  foldl_levels [] (by simp) (by simp) (by simpa using h.before) i (h.all i)

end StageGraph

theorem TopDown.reverse {n : Nat} {next : Fin n → List (Fin n)} {order : List (Fin n)}
    (h : TopDown next order) : StageGraph.BottomUp next order.reverse where
  all i := List.mem_reverse.mpr (h.all i)
  before pre i post hsplit := by
    have horder : order = post.reverse ++ i :: pre.reverse := by
      rw [← List.reverse_reverse order, hsplit]
      simp
    intro d hd
    exact List.mem_reverse.mp (h.before _ _ _ horder hd)

end StageFlow
