import StageFlow.Table
import StageFlow.Toml.Basic

/-!
# Reading records out of values

How the values of a configuration file become records. A record is written as a table, of which
unknown entries are ignored, or as an array that gives the fields in order. `none` stands for a value
of the wrong shape.
-/

namespace StageFlow.Toml

/-- Reads something out of a value. -/
abbrev Decoder (α : Type) := Toml → Option α

/-- The fields of a record by name. -/
abbrev Fields := String → Option Toml

/-- The key under which a date or time holds its text where a table is asked for. -/
def datetimeKey : String := "$__toml_private_datetime"

/-- The entries of a value that can be read as a table. -/
def tableEntries? : Toml → Option (List (String × Toml))
  | .table es => some es
  | .datetime text => some [(datetimeKey, .str text)]
  | _ => none

/-- The fields of a record whose fields have the given names in order. -/
def fields? (names : List String) : Toml → Option Fields
  | .array vs => some fun k => (names.zip vs).lookup k
  | v => v.tableEntries?.map fun es k => es.lookup k

/-- A text. -/
def text? : Decoder String
  | .str s => some s
  | _ => none

/-- A truth value. -/
def bool? : Decoder Bool
  | .bool b => some b
  | _ => none

/-- A natural number of 64 bits. -/
def word? : Decoder Nat
  | .int (.ofNat n) => if n < twoTo 64 then some n else none
  | _ => none

/-- A list. -/
def list? {α : Type} (item : Decoder α) : Decoder (List α)
  | .array vs => vs.mapM item
  | _ => none

/-- A table with entries of one kind. -/
def table? {α : Type} (item : Decoder α) (v : Toml) : Option (Table α) := do
  return Table.ofList (← (← v.tableEntries?).mapM fun (k, v) => (item v).map (k, ·))

/-- A field that has to be there. -/
def Fields.require? {α : Type} (fs : Fields) (k : String) (item : Decoder α) : Option α :=
  fs k >>= item

/-- A field that may be missing. -/
def Fields.optional? {α : Type} (fs : Fields) (k : String) (item : Decoder α) :
    Option (Option α) :=
  match fs k with
  | none => some none
  | some v => (item v).map some

/-- A field with a value that it has where it is missing. -/
def Fields.default? {α : Type} (fs : Fields) (k : String) (missing : α) (item : Decoder α) :
    Option α :=
  (fs.optional? k item).map (·.getD missing)

mutual

/-- Every integer in a value fits 64 bits with a sign. -/
def fits : Toml → Bool
  | .int i => -(twoTo 63 : Int) ≤ i && i < twoTo 63
  | .array vs => fitsAll vs
  | .table es => fitsEntries es
  | _ => true

/-- Every integer in every value of a list fits. -/
def fitsAll : List Toml → Bool
  | [] => true
  | v :: vs => v.fits && fitsAll vs

/-- Every integer in every value of a table fits. -/
def fitsEntries : List (String × Toml) → Bool
  | [] => true
  | (_, v) :: es => v.fits && fitsEntries es

end

/-- Any value. -/
def any? : Decoder Toml := fun v => if v.fits then some v else none

end StageFlow.Toml
