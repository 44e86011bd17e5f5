import StageFlow.Table
import StageFlow.Text.Record

/-!
# Builtin names

The names of the builtins that executors know, each once.
-/

namespace StageFlow

/-- A set of builtin names. -/
structure BuiltinNames where
  table : Table Unit

namespace BuiltinNames

/-- The set of some names. -/
def ofList (names : List String) : BuiltinNames := ⟨Table.ofList (names.map (·, ()))⟩

/-- The names in increasing order. -/
def toList (b : BuiltinNames) : List String := b.table.keys

/-- Whether a name is known. -/
def contains (b : BuiltinNames) (name : String) : Bool := b.table.contains name

/-- The set for a reader. -/
def shownText (b : BuiltinNames) : String :=
  Text.record "BuiltinRegistry" [("names", Text.listed (b.toList.map Text.quoted))]

end BuiltinNames
end StageFlow
