import Intercore.Board.Check
import Intercore.Board.Constants
import Intercore.Board.Decode

/-!
# The build step

The board description is found, read and checked, and its constants are written. The step is a
function of what it can see of the outside, and answers with what it prints and with the file
that it writes or the reason why it stops.
-/

namespace Intercore.Board

/-- What the build step can see of the outside. -/
structure Surroundings where
  /-- The directory of the package being built. -/
  manifestDir : Option String
  /-- The directory for generated files. -/
  outDir : Option String
  /-- The path of the board description, if one is chosen. -/
  boardPath : Option String
  /-- The contents of files. -/
  file : String → Option ByteArray

/-- Why the build step stops. -/
inductive BuildError
  | noVariable
  | read (path : String)
  | parse (path : String)
  | refused (c : Complaint)
  deriving DecidableEq, Repr

def BuildError.message : BuildError → String
  | noVariable => "environment variable not found"
  | read path => "reading board config " ++ path
  | parse path => "parsing board config " ++ path
  | refused c => c.message

/-- A file with its text. -/
structure Generated where
  path : String
  text : String
  deriving DecidableEq, Repr

/-- A path below a directory, with one slash between them. -/
def below (dir path : String) : String :=
  if dir.isEmpty || dir.endsWith "/" then dir ++ path else dir ++ "/" ++ path

/-- Where the description of the evaluation board lies, seen from the package. -/
def defaultPath (manifestDir : String) : String := below manifestDir "../../boards/amp-evb.toml"

/-- A step of the build that may stop, and what has been printed before. -/
abbrev BuildM := ExceptT BuildError (StateM String)

def say (line : String) : BuildM Unit := modify fun out => out ++ line ++ "\n"

/-- Goes on with a value, or stops with an error if there is none. -/
def orStop {α : Type} (e : BuildError) : Option α → BuildM α
  | some a => pure a
  | none => throw e

def findDescription (s : Surroundings) (default : String) : BuildM String := do
  say "cargo:rerun-if-env-changed=AMP_BOARD_CONFIG"
  match s.boardPath with
  | some path => return path
  | none =>
    say "--- $AMP_BOARD_CONFIG not present, using default ---"
    return default

/-- The board that is described, not yet checked. The description is echoed. -/
def readDescription (s : Surroundings) (default : String) : BuildM Board := do
  let path ← findDescription s default
  say ("cargo:rerun-if-changed=" ++ path)
  let text ← orStop (.read path) (s.file path >>= String.fromUTF8?)
  say ("--- board config " ++ path ++ " ---")
  say text
  orStop (.parse path) (parse? text)

/-- The whole build step. -/
def build (s : Surroundings) : BuildM Generated := do
  let manifestDir ← orStop .noVariable s.manifestDir
  let b ← readDescription s (defaultPath manifestDir)
  match b.check with
  | .error c => throw (.refused c)
  | .ok () =>
    let outDir ← orStop .noVariable s.outDir
    return ⟨below outDir "amp_config.rs", b.constantsText⟩

end Intercore.Board
