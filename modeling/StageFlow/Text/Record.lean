import StageFlow.Text.Quoted

/-!
# Records on one line

How records, lists and optional values are shown for a reader who looks into a program.
-/

namespace StageFlow.Text

/-- A record with named fields; `more` says that it has fields which are not shown. -/
def record (name : String) (fields : List (String × String)) (more : Bool := false) : String :=
  let items := fields.map (fun (k, v) => k ++ ": " ++ v) ++ if more then [".."] else []
  if items.isEmpty then name else name ++ " \x7b " ++ ", ".intercalate items ++ " \x7d"

/-- A list. -/
def listed (items : List String) : String := "[" ++ ", ".intercalate items ++ "]"

/-- A value under a name. -/
def wrapped (name item : String) : String := name ++ "(" ++ item ++ ")"

/-- A value that may be missing. -/
def optional : Option String → String
  | none => "None"
  | some item => wrapped "Some" item

end StageFlow.Text
