import StageFlow.CommandLine.Image

/-!
# The program

Reads the command line, the environment and the files that an invocation may come across, carries the
invocation out, prints and logs what came of it, and changes the files accordingly.
-/

namespace StageFlow.Main

/-- The bytes of a file, if it can be read. -/
def bytes? (path : String) : IO (Option (List UInt8)) := do
  match ← (IO.FS.readBinFile path).toBaseIO with
  | .ok bytes => return some bytes.toList
  | .error _ => return none

/-- The text of a file, if it can be read. -/
def text? (path : String) : IO (Option String) := do
  return (← bytes? path).bind fun bytes => String.fromUTF8? ⟨bytes.toArray⟩

/-- Adds what is at a path to an image. -/
def load (cwd : Place) (d : Disk) (path : String) : IO Disk := do
  let place := Image.placeOf cwd path
  match ← (IO.FS.readBinFile path).toBaseIO with
  | .ok bytes => return Image.add d place (some bytes.toList)
  | .error (.inappropriateType _ _ why) =>
    return if why = DiskFault.isDirectory.reason then Image.add d place none else d
  | .error _ => return d

/-- Where an invocation is carried out. -/
def surroundings (i : Invocation) : IO Surroundings := do
  let env := Image.entries ((← bytes? "/proc/self/environ").getD [])
  let cwd := Image.placeOf [] ((← IO.getEnv "PWD").getD "/")
  let config := (← text? i.configPath).getD ""
  let disk ← (i.configPath :: Image.paths i config).foldlM (load cwd) (Disk.bare.withDirs cwd)
  return { disk, cwd, env, cores := Image.processors ((← text? "/proc/cpuinfo").getD "") }

/-- Makes a change. -/
def apply : Image.Change → IO Unit
  | .removeFile path => IO.FS.removeFile path
  | .removeDir path => IO.FS.removeDir path
  | .makeDir path => IO.FS.createDirAll path
  | .writeFile path content => IO.FS.writeBinFile path ⟨content.toArray⟩

/-- Carries out an invocation. -/
def run (i : Invocation) : IO UInt32 := do
  let around ← surroundings i
  let (p, ending) := i.perform around
  IO.print (String.ofList p.terminal.written)
  for (level, line) in p.logLines (i.logThreshold (← IO.getEnv "STAGERUN_LOG")) do
    IO.eprintln (level.name ++ " " ++ line)
  (Image.changes around.disk p.world).forM apply
  match ending with
  | .ok outcome => return outcome.exitStatus.toUInt32
  | .error e =>
    IO.eprintln ("stagerun error: " ++ e.message)
    return 1

end StageFlow.Main

/-- Carries out the command line. -/
def main (args : List String) : IO UInt32 := do
  match StageFlow.Invocation.parse args with
  | .ok i => StageFlow.Main.run i
  | .error e =>
    if e.exitStatus = 0 then IO.println e.message else IO.eprintln e.message
    return e.exitStatus.toUInt32
