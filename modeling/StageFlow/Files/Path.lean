/-!
# Paths

A path is where it starts and the names along it. Repeated and trailing slashes do not count, and a
single dot counts only at the start of a relative path; two dots are a name like any other.
-/

namespace StageFlow

/-- A path in normal form. -/
structure Path where
  absolute : Bool
  names : List String
  deriving DecidableEq

namespace Path

/-- The pieces of a text between slashes. -/
def pieces (text : String) : List String := (text.toList.splitOn '/').map String.ofList

/-- Whether a text is an absolute path. -/
def isAbsolute (text : String) : Bool := text.toList.head? = some '/'

/-- The path that a text denotes. -/
def ofText (text : String) : Path :=
  let names := (pieces text).filter fun n => n ≠ "" && n ≠ "."
  if isAbsolute text then ⟨true, names⟩
  else if (pieces text).head? = some "." then ⟨false, "." :: names⟩
  else ⟨false, names⟩

/-- The text of a path relative to a directory; an absolute path replaces the directory. -/
def joinText (base text : String) : String :=
  if isAbsolute text then text
  else if base = "" || base.toList.getLast? = some '/' then base ++ text
  else base ++ "/" ++ text

/-- The directory that holds a path. The root and the empty path have none. -/
def parent? (p : Path) : Option Path :=
  if p.names.isEmpty then none else some { p with names := p.names.dropLast }

/-- The empty relative path. -/
def isEmpty (p : Path) : Bool := !p.absolute && p.names.isEmpty

/-- The directories above a relative or absolute path, nearest first, without the empty path. -/
def ancestors (p : Path) : List Path :=
  (List.range p.names.length).reverse.filterMap fun n =>
    let q : Path := { p with names := p.names.take n }
    if q.isEmpty then none else some q

/-- Drops pieces at the end of a text that name nothing; what comes first in a relative path always
names something unless it is empty. The pieces are given last piece first. -/
def dropNameless (absolute : Bool) : List String → List String
  | [] => []
  | p :: ps =>
    if p = "" || (p = "." && (absolute || !ps.isEmpty)) then dropNameless absolute ps else p :: ps

/-- The text of a path up to the directory that holds it, written as in the text. -/
def parentText? (text : String) : Option String :=
  let absolute := isAbsolute text
  match dropNameless absolute (pieces text).reverse with
  | [] => none
  | _ :: rest =>
    match dropNameless absolute rest with
    | [] => some (if absolute then "/" else "")
    | ps => some ("/".intercalate ps.reverse)

/-- A path without single dots, and with two dots resolved against the name before them. -/
def resolved (p : Path) : Path :=
  { p with names := (p.names.foldl (fun acc n =>
      if n = "." then acc else if n = ".." then acc.tail else n :: acc) []).reverse }

end Path
end StageFlow
