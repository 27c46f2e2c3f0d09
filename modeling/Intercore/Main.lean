import Intercore.Board.Build

/-!
# The build command

The command that generates a board's constants during a build.
-/

namespace Intercore

/-- Gathers what the build step can see; the description is the only file it looks at. -/
def gather : IO Board.Surroundings := do
  let manifestDir ← IO.getEnv "CARGO_MANIFEST_DIR"
  let outDir ← IO.getEnv "OUT_DIR"
  let boardPath ← IO.getEnv "AMP_BOARD_CONFIG"
  let path := boardPath.getD (Board.defaultPath (manifestDir.getD ""))
  let content ← try some <$> IO.FS.readBinFile path catch _ => pure none
  return ⟨manifestDir, outDir, boardPath, fun p => if p = path then content else none⟩

end Intercore

open Intercore in
/-- Runs the build step, prints what it prints, and writes the file it generates. -/
def main : IO UInt32 := do
  let (result, out) := (Board.build (← gather)).run ""
  IO.print out
  match result with
  | .ok file =>
    IO.FS.writeFile file.path file.text
    return 0
  | .error e =>
    IO.eprintln ("Error: " ++ e.message)
    return 1
