import Intake.CommandLine.Run

/-!
# The program

Reads the file, the environment and the typed lines, runs the command line
on them, and writes what comes of it. It starts no program and reaches no
model: tools count as missing, and a model refuses every call.
-/

namespace Intake.CommandLine

/-- The variables a run may look at. -/
def variableNames : List String :=
  ["LLM_PROVIDER", "OPENROUTER_API_KEY", "AZURE_API_KEY", Provider.deploymentVariable "gpt-4o-mini",
   Settings.maxPagesVariable, Settings.textTimeoutVariable, Settings.modelEnabledVariable,
   Settings.modelVariable]

/-- The variables that are set. -/
def environment : IO Environment :=
  variableNames.filterMapM fun name => do return (← IO.getEnv name).map (name, ·)

/-- The file that the words name, if it can be read. -/
def filesOf (words : List String) : IO (List (String × Text.Utf8.Bytes)) := do
  match Arguments.read words with
  | .error _ => return []
  | .ok a =>
    let path := FileName.render a.file
    try
      let data ← IO.FS.readBinFile path
      return [(path, data.toList)]
    catch _ => return []

/-- The lines typed until the input ends. -/
partial def typedLines (input : IO.FS.Stream) : IO (List String) := do
  let line ← input.getLine
  if line.isEmpty then return [] else return line :: (← typedLines input)

/-- The moment at which a new file is made. -/
def presentMoment : IO Calendar.Moment := do
  let (_, path) ← IO.FS.createTempFile
  let time := (← path.metadata).modified
  IO.FS.removeFile path
  return ⟨(time.sec * 1000000).toNat + time.nsec.toNat / 1000⟩

/-- The folder of a path. -/
def folderOf (path : String) : String :=
  "/".intercalate (path.splitOn "/").dropLast

/-- Writes a file and makes its folder if need be. -/
def writeOut (path content : String) : IO Unit := do
  if ! (folderOf path).isEmpty then IO.FS.createDirAll (folderOf path)
  IO.FS.writeFile path content

end Intake.CommandLine

open Intake Intake.CommandLine

/-- Runs the command line. -/
def main (words : List String) : IO UInt32 := do
  let env ← environment
  let provider := Provider.ofEnvironment env
  let lines ← match Arguments.read words with
    | .ok a => if a.interactive then typedLines (← IO.getStdin) else pure []
    | .error _ => pure []
  let ended := run
    { words := words, environment := env, provider := provider
      defaultModel := provider.defaultModel env, files := ← filesOf words, lines := lines
      site := { book := { journal := { start := ← presentMoment } } } }
  IO.eprint ended.site.book.journal.console
  IO.print ended.output
  for (path, content) in ended.written do
    writeOut path content
  return UInt32.ofNat ended.status
