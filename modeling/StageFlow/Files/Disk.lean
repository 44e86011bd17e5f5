import StageFlow.Files.Path

/-!
# Disks

A disk holds files with their bytes and directories, by the names that lead to them from the root. A
path text is followed name by name: whatever is passed on the way has to be a directory, and two dots
lead back. `Disk.follow` says where a path leads, whether or not there is anything at its end.
-/

namespace StageFlow

/-- What a disk holds at a place. -/
inductive DiskItem where
  | file (content : List UInt8)
  | dir
  /-- Empty for readers, and takes whatever is written to it. -/
  | drain
  deriving DecidableEq

/-- A place on a disk: the names that lead to it from the root. -/
abbrev Place := List String

/-- The text of a place. -/
def Place.text (p : Place) : String := "/" ++ "/".intercalate p

/-- What is at each place; the root is a directory. -/
structure Disk where
  items : List (Place × DiskItem)

/-- Why a disk refuses an operation. -/
inductive DiskFault where
  | missing | exists | notDirectory | isDirectory | nameTooLong | notEmpty
  deriving DecidableEq

/-- The wording of a refusal. -/
def DiskFault.reason : DiskFault → String
  | .missing => "No such file or directory"
  | .exists => "File exists"
  | .notDirectory => "Not a directory"
  | .isDirectory => "Is a directory"
  | .nameTooLong => "File name too long"
  | .notEmpty => "Directory not empty"

/-- The number of a refusal. -/
def DiskFault.number : DiskFault → Nat
  | .missing => 2
  | .exists => 17
  | .notDirectory => 20
  | .isDirectory => 21
  | .nameTooLong => 36
  | .notEmpty => 39

/-- The wording with the number. -/
def DiskFault.message (f : DiskFault) : String :=
  f.reason ++ " (os error " ++ f.number.repr ++ ")"

namespace Disk

/-- What is at a place. -/
def item? (d : Disk) : Place → Option DiskItem
  | [] => some .dir
  | p => (d.items.find? (·.1 = p)).map (·.2)

/-- Puts something at a place. -/
def put (d : Disk) (p : Place) (i : DiskItem) : Disk :=
  ⟨(p, i) :: d.items.filter (·.1 ≠ p)⟩

/-- Takes away what is at a place, and below it. -/
def remove (d : Disk) (p : Place) : Disk := ⟨d.items.filter fun e => !p.isPrefixOf e.1⟩

/-- Adds the directories of a place and above it that are missing. -/
def withDirs (d : Disk) (p : Place) : Disk :=
  (List.range p.length).foldl (fun d n =>
    let q := p.take (n + 1)
    if (d.item? q).isSome then d else d.put q .dir) d

/-- Adds a file, and the directories above it that are missing. -/
def withFile (d : Disk) (p : Place) (text : String) : Disk :=
  (d.withDirs p.dropLast).put p (.file text.toUTF8.toList)

/-- A disk with the directories that every system has, and a place for discarded output. -/
def bare : Disk :=
  let dirs := [["bin"], ["dev"], ["etc"], ["home"], ["proc"], ["root"], ["tmp"], ["usr", "bin"], ["var"]]
  (dirs.foldl withDirs ⟨[]⟩).put ["dev", "null"] .drain

/-- The longest name that a disk takes, in bytes. -/
def longestName : Nat := 255

/-- The place that the pieces of a path text lead to from a directory. -/
def follow (d : Disk) (here : Place) : List String → Except DiskFault Place
  | [] => .ok here
  | piece :: rest =>
    match d.item? here with
    | none => .error .missing
    | some .dir =>
      if piece = "" || piece = "." then d.follow here rest
      else if piece = ".." then d.follow here.dropLast rest
      else if longestName < piece.utf8ByteSize then .error .nameTooLong
      else d.follow (here ++ [piece]) rest
    | some _ => .error .notDirectory

/-- The place that a path text leads to, seen from a directory. -/
def place (d : Disk) (cwd : Place) (path : String) : Except DiskFault Place :=
  if path = "" then .error .missing
  else d.follow (if Path.isAbsolute path then [] else cwd) (Path.pieces path)

/-- What a path text leads to. -/
def lookup (d : Disk) (cwd : Place) (path : String) : Except DiskFault (Place × DiskItem) := do
  let p ← d.place cwd path
  match d.item? p with
  | none => .error .missing
  | some i => .ok (p, i)

/-- Whether a path text leads to anything. -/
def hasPath (d : Disk) (cwd : Place) (path : String) : Bool := (d.lookup cwd path).toBool

/-- The directory that a path text leads to. -/
def directory (d : Disk) (cwd : Place) (path : String) : Except DiskFault Place := do
  match ← d.lookup cwd path with
  | (p, .dir) => .ok p
  | _ => .error .notDirectory

/-- The bytes of a file. -/
def read (d : Disk) (cwd : Place) (path : String) : Except DiskFault (List UInt8) := do
  match ← d.lookup cwd path with
  | (_, .file content) => .ok content
  | (_, .drain) => .ok []
  | (_, .dir) => .error .isDirectory

/-- The names in a directory, in increasing order. -/
def names (d : Disk) (p : Place) : List String :=
  let below := d.items.filterMap fun e =>
    if e.1.dropLast = p then e.1.getLast? else none
  below.mergeSort (· ≤ ·)

/-- Opens a file for writing: what is missing is made, and what is there is emptied unless more is to be
added to it. -/
def openFile (d : Disk) (cwd : Place) (path : String) (adds : Bool) :
    Except DiskFault (Place × Disk) := do
  let p ← d.place cwd path
  match d.item? p with
  | some .dir => .error .isDirectory
  | some .drain => .ok (p, d)
  | some (.file _) => .ok (p, if adds then d else d.put p (.file []))
  | none =>
    match d.item? p.dropLast with
    | some .dir => .ok (p, d.put p (.file []))
    | some _ => .error .notDirectory
    | none => .error .missing

/-- Adds bytes to the file at a place. -/
def append (d : Disk) (p : Place) (bytes : List UInt8) : Disk :=
  match d.item? p with
  | some (.file content) => d.put p (.file (content ++ bytes))
  | _ => d

/-- Makes a directory. -/
def makeDir (d : Disk) (cwd : Place) (path : String) : Except DiskFault Disk := do
  let p ← d.place cwd path
  if (d.item? p).isSome then .error .exists
  else match d.item? p.dropLast with
    | some .dir => .ok (d.put p .dir)
    | some _ => .error .notDirectory
    | none => .error .missing

/-- Removes an empty directory. -/
def removeDir (d : Disk) (cwd : Place) (path : String) : Except DiskFault Disk := do
  let p ← d.directory cwd path
  if (d.names p).isEmpty then .ok (d.remove p) else .error .notEmpty

/-- Moves what is at a place, with all below it, to another place. -/
def move (d : Disk) (source target : Place) : Disk :=
  let moved := d.items.filterMap fun e =>
    if source.isPrefixOf e.1 then some (target ++ e.1.drop source.length, e.2) else none
  moved.foldl (fun d e => d.put e.1 e.2) (d.remove source)

/-- Copies what is at a place, with all below it, to another place. -/
def copy (d : Disk) (source target : Place) : Disk :=
  let copied := d.items.filterMap fun e =>
    if source.isPrefixOf e.1 then some (target ++ e.1.drop source.length, e.2) else none
  copied.foldl (fun d e => d.put e.1 e.2) d

theorem item?_nil (d : Disk) : d.item? [] = some .dir := rfl

theorem item?_put (d : Disk) {p q : Place} (i : DiskItem) (hq : q ≠ []) :
    (d.put p i).item? q = if p = q then some i else d.item? q := by
  obtain ⟨items⟩ := d
  obtain ⟨x, xs, rfl⟩ := List.exists_cons_of_ne_nil hq
  by_cases h : p = x :: xs
  · simp [item?, put, h]
  · have same : (fun e : Place × DiskItem => !decide (e.1 = p) && decide (e.1 = x :: xs)) =
        fun e => decide (e.1 = x :: xs) := by
      funext e
      by_cases he : e.1 = x :: xs
      · simp [he, Ne.symm h]
      · simp [he]
    simp [item?, put, h, List.find?_filter, same]

end Disk
end StageFlow
