/-!
# Rows

A row holds one item for every place of a stage. `Row.get_put` says what a row holds after one item has
been replaced, and `Row.countP_put` how many of its items have a property.
-/

namespace StageFlow

/-- A row of items. -/
abbrev Row (α : Type) (n : Nat) := Vector α n

namespace Row

variable {α : Type} {n : Nat}

/-- The row with the items that a function gives. -/
def ofFn (f : Fin n → α) : Row α n := Vector.ofFn f

/-- Replaces the item at a place. -/
def put (r : Row α n) (i : Fin n) (a : α) : Row α n := Vector.set r i a i.isLt

theorem get_ofFn (f : Fin n → α) (i : Fin n) : (ofFn f).get i = f i := Vector.getElem_ofFn i.isLt

theorem get_put (r : Row α n) (i j : Fin n) (a : α) :
    (r.put i a).get j = if i = j then a else r.get j := by
  have h : (r.put i a).get j = if i.val = j.val then a else r.get j :=
    Vector.getElem_set i.isLt j.isLt
  simpa only [Fin.val_inj] using h

theorem ext {r r' : Row α n} (h : ∀ i, r.get i = r'.get i) : r = r' :=
  Vector.ext fun i hi => h ⟨i, hi⟩

theorem get_map {β : Type} (f : α → β) (r : Row α n) (i : Fin n) : (r.map f).get i = f (r.get i) :=
  Vector.getElem_map f i.isLt

theorem put_get (r : Row α n) (i : Fin n) : r.put i (r.get i) = r :=
  ext fun j => by
    rw [get_put]
    split
    next h => rw [h]
    next => rfl

/-- Items that are replaced one after the other depend on the replacements at their own place only. -/
theorem get_foldl_put {β : Type} (index : β → Fin n) (f : α → β → α) (bs : List β) (r : Row α n)
    (i : Fin n) : (bs.foldl (fun r b => r.put (index b) (f (r.get (index b)) b)) r).get i =
      (bs.filter (index · = i)).foldl f (r.get i) := by
  induction bs generalizing r with
  | nil => rfl
  | cons b bs ih =>
    rw [List.foldl_cons, ih, get_put]
    by_cases hi : index b = i
    · subst hi
      simp
    · simp [hi]

theorem toList_eq (r : Row α n) : r.toList = (List.finRange n).map r.get := by
  refine List.ext_getElem (by simp) fun i hi _ => ?_
  rw [List.getElem_map, List.getElem_finRange]
  rfl

theorem countP_put (p : α → Bool) (r : Row α n) (i : Fin n) (a : α) :
    (r.put i a).countP p + (if p (r.get i) then 1 else 0) = r.countP p + if p a then 1 else 0 := by
  have hput : (r.put i a).countP p =
      r.countP p - (if p (r.get i) then 1 else 0) + if p a then 1 else 0 :=
    Vector.countP_set i.isLt
  have hpos : (if p (r.get i) then 1 else 0) ≤ r.countP p := by
    split
    · next h => exact Vector.countP_pos_iff.mpr ⟨r.get i, Vector.getElem_mem i.isLt, h⟩
    · exact Nat.zero_le _
  omega

end Row
end StageFlow
