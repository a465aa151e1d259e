import OtaUpgrade.Cli.Program

/-!
The program as it runs: it reads the files that the command line names, runs, and then writes, prints
and logs.
-/
namespace OtaUpgrade.Cli

/-- The files that an action reads. -/
def Action.reads : Action → List String
  | .simulate image _ | .crc image | .inspect image _ => [image]
  | .initConfig _ => []

/-- The files that an action writes. -/
def Action.writes : Action → List String
  | .initConfig path => [path]
  | _ => []

/-- The system's refusal as the program knows it. -/
def fileError : IO.Error → FileError
  | .noFileOrDirectory .. => .notFound
  | .inappropriateType .. => .isDirectory
  | .permissionDenied _ code _ => .other s!"Permission denied (os error {code})"
  | e => .other (toString e)

/-- What is found at a place. -/
def readEntry (place : Place) : IO (Place × Except FileError Bytes) := do
  try
    let contents ← IO.FS.readBinFile place.text
    return (place, .ok contents.data.toList)
  catch e => return (place, .error (fileError e))

/-- Writes a file as the program left it, and tells if the system refuses. -/
def writeEntry (files : Files) (path : String) : IO (Option (Place × Except FileError Bytes)) := do
  let place := (FilePath.read path).place
  match files.look place with
  | .ok contents =>
    try
      IO.FS.writeBinFile place.text ⟨contents.toArray⟩
      return none
    catch e => return some (place, .error (.other (fileError e).message))
  | .error _ => return none

/-- Prints and logs what the program did. -/
def finish (outcome : Outcome) : IO UInt32 := do
  outcome.log.forM fun record => IO.eprintln record.line
  if let some failure := outcome.failure then
    IO.eprintln failure.text
  IO.print outcome.output
  return UInt32.ofNat outcome.exit

/-- Runs the program on the files of the system. Along each path that the command line names, it is
told what is found. A file that the system refuses to write makes for another run, in which that is
known. -/
def runOnSystem (args : List String) : IO UInt32 := do
  let (reads, writes) :=
    match CommandLine.read args with
    | .run i => (i.config.toList ++ i.action.reads, i.action.writes)
    | _ => ([], [])
  let entries ← ((reads ++ writes).flatMap fun path => (FilePath.read path).places).mapM readEntry
  let outcome := program args ⟨entries⟩
  let refusals ←
    if outcome.failure.isSome then pure [] else writes.filterMapM (writeEntry outcome.files)
  if refusals.isEmpty then finish outcome else finish (program args ⟨refusals ++ entries⟩)

end OtaUpgrade.Cli

def main (args : List String) : IO UInt32 :=
  OtaUpgrade.Cli.runOnSystem args
