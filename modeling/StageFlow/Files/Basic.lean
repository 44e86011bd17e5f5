import StageFlow.Files.Path
import StageFlow.Text.Quoted

/-!
# File trees

A file tree holds files with their text and directories, by path. Adding a file adds the directories
above it; adding a directory does not.
-/

namespace StageFlow

/-- What a path may lead to. -/
inductive FileEntry where
  | file (content : String)
  | dir
  deriving DecidableEq

/-- Files and directories by path; the first entry for a path counts. -/
structure Files where
  entries : List (Path × FileEntry)

namespace Files

/-- The tree without entries. -/
def empty : Files := ⟨[]⟩

/-- What a path leads to. -/
def get? (fs : Files) (p : Path) : Option FileEntry := (fs.entries.find? (·.1 = p)).map (·.2)

/-- Whether there is anything at a path. -/
def hasPath (fs : Files) (p : Path) : Bool := (fs.get? p).isSome

/-- Whether there is anything at the path that a text denotes. -/
def exists? (fs : Files) (path : String) : Bool := fs.hasPath (Path.ofText path)

/-- Puts an entry at a path. -/
def put (fs : Files) (p : Path) (e : FileEntry) : Files :=
  ⟨(p, e) :: fs.entries.filter (·.1 ≠ p)⟩

/-- Takes away what is at a path. -/
def remove (fs : Files) (p : Path) : Files := ⟨fs.entries.filter (·.1 ≠ p)⟩

/-- Adds a directory. -/
def addDir (fs : Files) (path : String) : Files := fs.put (Path.ofText path) .dir

/-- Adds a file, and the directories above it that are missing. -/
def addFile (fs : Files) (path content : String) : Files :=
  let p := Path.ofText path
  let fs := p.ancestors.foldl (fun fs q => if fs.hasPath q then fs else fs.put q .dir) fs
  fs.put p (.file content)

/-- A file tree with the given files and then the given directories. -/
def ofLists (files : List (String × String)) (dirs : List String) : Files :=
  dirs.foldl addDir (files.foldl (fun fs f => fs.addFile f.1 f.2) empty)

/-- Why a file cannot be read. -/
inductive ReadError where
  | isDirectory (path : String)
  | notFound (path : String)
  deriving DecidableEq

/-- The wording of a read error. -/
def ReadError.message : ReadError → String
  | .isDirectory path => Text.quoted path ++ " is a directory"
  | .notFound path => "file not found: " ++ Text.quoted path

/-- The text of a file. -/
def read (fs : Files) (path : String) : Except ReadError String :=
  match fs.get? (Path.ofText path) with
  | some (.file content) => .ok content
  | some .dir => .error (.isDirectory path)
  | none => .error (.notFound path)

end Files
end StageFlow
