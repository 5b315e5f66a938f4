import ApiSurface.Datum.Writer
import ApiSurface.Program

/-!
# The executable

Reads the files that the program looks at, runs it, and carries out what it answers.
-/

namespace ApiSurface.Main

/-- Data is written in one line, in flow style. -/
def platform : Platform where
  lineEnd := .lf
  dataText := fun data => Text.line data.written

private def readText? (path : FilePath) : IO (Option Text) := do
  try
    let text ← IO.FS.readFile path.shown
    pure (some text.toList)
  catch _ => pure none

private def loadInputs (files : Files) (arguments : List String) : IO Files :=
  (Program.inputs platform files arguments).foldlM (fun files path => do
      match ← readText? path with
      | some text => pure (files.write path text)
      | none => pure files)
    files

private def saveText (place : Place) (text : Text) : IO Unit := do
  IO.FS.createDirAll (FilePath.ofPlace place.dropLast).shown
  IO.FS.writeFile (FilePath.ofPlace place).shown (String.ofList text)

end ApiSurface.Main

open ApiSurface ApiSurface.Main

/-- The approved report can be named only when the settings and the dump are known,
so inputs are loaded twice. -/
def main (arguments : List String) : IO UInt32 := do
  let folder := FilePath.ofString (← IO.currentDir).toString
  let given ← loadInputs { current := folder.place [] } arguments
  let files ← loadInputs given arguments
  let exit := Program.run platform files arguments
  for place in exit.files.folders do
    IO.FS.createDirAll (FilePath.ofPlace place).shown
  for (place, text) in exit.files.texts do
    if files.texts.lookup place ≠ some text then saveText place text
  (← IO.getStdout).putStr (String.ofList exit.output)
  (← IO.getStderr).putStr (String.ofList exit.errors)
  pure (UInt32.ofNat exit.code)
