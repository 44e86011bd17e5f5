import StageFlow.Config.Basic
import StageFlow.Files.Basic
import StageFlow.Toml.Document

/-!
# Reading configurations

Configurations as texts in TOML.
-/

namespace StageFlow

/-- What a text says as a configuration, if it is a document with all that a configuration needs. -/
def Written.Config.ofText? (text : String) : Option Written.Config := Toml.document? text >>= ofToml?

namespace Config

variable [Toposort]

/-- The configuration that a text describes. -/
def ofText (text : String) : Except RunError Config := ofWritten (Written.Config.ofText? text)

/-- The configuration in a file of a file tree. -/
def load (fs : Files) (path : String) : Except RunError Config :=
  match fs.read path with
  | .error e => .error (.unreadable e.message)
  | .ok text => ofText text

end Config
end StageFlow
