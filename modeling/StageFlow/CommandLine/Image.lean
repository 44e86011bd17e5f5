import StageFlow.CommandLine.Performance

/-!
# Images of a file system

An invocation is carried out on an image of the files around it. The image holds what the words of the
configuration file lead to, from the current directory and from the directory of the steps. Afterwards
`Image.changes` tells what has to be done to the files to make them like the image: nothing, if the
invocation has left the image alone.
-/

namespace StageFlow.Image

/-- Whether a character stands between words. -/
def isSeparator (c : Char) : Bool :=
  Text.isBlank c || c ∈ ['"', '\'', '(', ')', '[', ']', '\x7b', '\x7d', '<', '>', '=', ',', ';', '&', '|']

/-- The words of a text. -/
def words (text : String) : List String :=
  ((text.toList.splitOnP isSeparator).filter (!·.isEmpty)).map String.ofList

/-- The paths whose files an invocation may come across, by the text of its configuration file. -/
def paths (i : Invocation) (config : String) : List String :=
  let workdir := match Config.ofText config with
    | .ok c => workingDirectory i.configPath c.options.workdir
    | .error _ => "."
  workdir :: (words config).flatMap fun w => [w, Path.joinText workdir w]

/-- The place of a path, seen from a directory. -/
def placeOf (cwd : Place) (path : String) : Place :=
  (Path.ofText (Path.joinText cwd.text path)).resolved.names

/-- The entries of an environment whose bytes are divided by zeros; a name has at least one byte. -/
def entries (bytes : List UInt8) : List RawEntry :=
  (bytes.splitOn 0).filterMap fun entry =>
    match entry with
    | [] => none
    | first :: rest =>
      let name := rest.takeWhile (· ≠ 61)
      if name.length = rest.length then none
      else some (⟨(first :: name).toArray⟩, ⟨(rest.drop (name.length + 1)).toArray⟩)

/-- How many processors a listing of them shows, at least one. -/
def processors (listing : String) : Nat :=
  max 1 ((listing.splitOn "\n").countP (·.startsWith "processor"))

/-- Adds a file with its bytes, or a directory. -/
def add (d : Disk) (p : Place) (bytes : Option (List UInt8)) : Disk :=
  match bytes with
  | some content => (d.withDirs p.dropLast).put p (.file content)
  | none => d.withDirs p

/-- Something to be done to files. -/
inductive Change where
  | removeFile (path : String)
  | removeDir (path : String)
  | makeDir (path : String)
  | writeFile (path : String) (content : List UInt8)
  deriving DecidableEq

/-- How to take away what was at a place and is not there any more. -/
def removal? (before after : Disk) (p : Place) : Option Change :=
  match before.item? p, after.item? p with
  | some (.file _), none | some (.file _), some .dir => some (.removeFile p.text)
  | some .dir, none | some .dir, some (.file _) => some (.removeDir p.text)
  | _, _ => none

/-- How to make what is at a place and was not there before. -/
def addition? (before after : Disk) (p : Place) : Option Change :=
  if before.item? p = after.item? p then none
  else match after.item? p with
    | some (.file content) => some (.writeFile p.text content)
    | some .dir => some (.makeDir p.text)
    | _ => none

/-- What has to be done where one disk was to make it like another: what lies deeper is taken away sooner
and added later. -/
def changes (before after : Disk) : List Change :=
  let deeper (p q : Place) : Bool := q.length ≤ p.length
  let old := (before.items.map (·.1)).mergeSort deeper
  let new := (after.items.map (·.1)).mergeSort fun p q => deeper q p
  old.filterMap (removal? before after) ++ new.filterMap (addition? before after)

theorem removal?_self (d : Disk) (p : Place) : removal? d d p = none := by
  unfold removal?
  cases d.item? p with
  | none => rfl
  | some i => cases i <;> rfl

theorem addition?_self (d : Disk) (p : Place) : addition? d d p = none := by simp [addition?]

theorem changes_self (d : Disk) : changes d d = [] := by
  simp [changes, removal?_self, addition?_self]

end StageFlow.Image
