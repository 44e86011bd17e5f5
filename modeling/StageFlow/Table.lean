/-!
# Tables

A table binds names to values, with its entries in increasing order of the names.
`Table.get?_insert` says what a table binds after an insertion.
-/

namespace StageFlow

/-- Entries with increasing names. -/
structure Table (α : Type) where
  entries : List (String × α)

namespace Table

variable {α β : Type}

/-- The table without entries. -/
def empty : Table α := ⟨[]⟩

instance : Inhabited (Table α) := ⟨empty⟩

/-- The value bound to a name. -/
def get? (t : Table α) (k : String) : Option α := (t.entries.find? (·.1 = k)).map (·.2)

/-- Whether a name is bound. -/
def contains (t : Table α) (k : String) : Bool := (t.get? k).isSome

/-- The bound names, in increasing order. -/
def keys (t : Table α) : List String := t.entries.map (·.1)

/-- The bound values, in the order of their names. -/
def values (t : Table α) : List α := t.entries.map (·.2)

/-- Binds a name in a list of entries, in front of the first greater name. -/
def insertEntry (k : String) (v : α) : List (String × α) → List (String × α)
  | [] => [(k, v)]
  | e :: es =>
    if e.1 = k then (k, v) :: es
    else if k < e.1 then (k, v) :: e :: es
    else e :: insertEntry k v es

/-- Binds a name, replacing an earlier binding. -/
def insert (t : Table α) (k : String) (v : α) : Table α := ⟨insertEntry k v t.entries⟩

/-- Binds names one after the other; a later entry wins over an earlier one. -/
def insertAll (t : Table α) (es : List (String × α)) : Table α :=
  es.foldl (fun t e => t.insert e.1 e.2) t

/-- The table of a list of entries; a later entry wins over an earlier one. -/
def ofList (es : List (String × α)) : Table α := empty.insertAll es

/-- Applies a function to every bound value. -/
def map (f : α → β) (t : Table α) : Table β := ⟨t.entries.map fun e => (e.1, f e.2)⟩

@[simp] theorem get?_empty (k : String) : (empty : Table α).get? k = none := rfl

theorem get?_insert (t : Table α) (k k' : String) (v : α) :
    (t.insert k v).get? k' = if k = k' then some v else t.get? k' := by
  obtain ⟨es⟩ := t
  simp only [insert, get?]
  induction es with
  | nil => by_cases h : k = k' <;> simp [insertEntry, h]
  | cons e es ih =>
    simp only [insertEntry]
    split
    · next he => subst he; by_cases h : e.1 = k' <;> simp [h]
    · next he =>
      split
      · by_cases h : k = k' <;> simp [h]
      · by_cases h : e.1 = k'
        · have : k ≠ k' := fun hk => he (h.trans hk.symm)
          simp [h, this]
        · simpa [h] using ih

end Table
end StageFlow
