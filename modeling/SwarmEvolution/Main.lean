import SwarmEvolution.Evolution.Report
import SwarmEvolution.Settings.Layers

/-!
The command line: evolves an optimiser under the settings of a file, the defaults if none is named,
and prints what was found. Variables of the environment can override single settings. The settings
and their file of start points are files of the working directory.
-/
namespace SwarmEvolution.CommandLine

/-- The names of the variables that can override a setting. -/
def variableNames : List String :=
  let sections :=
    [("evolution", (Settings.Evolution.fields .loose).map (·.1)),
      ("interpreter", (Settings.Machine.fields .loose).map (·.1)),
      ("optimisation", (Settings.Optimisation.fields .loose).map (·.1))]
  sections.flatMap fun (name, keys) =>
    keys.map fun key => Settings.overrideMark ++ name.toUpper ++ "__" ++ key.toUpper

/-- The variables that are set, by name and text. -/
def overrides : IO (List (String × String)) := do
  let found ← variableNames.mapM fun name => return (← IO.getEnv name).map (name, ·)
  return found.filterMap id

/-- The directory with one more file, if there is such a file to be read. -/
def addFile (d : Directory) (path : String) : IO Directory := do
  try
    let text ← IO.FS.readFile path
    return (d.write? path text).getD d
  catch _ => return d

/-- Writes a file of the directory. -/
def storeFile (d : Directory) (path : String) : IO Unit := do
  match d.read? path with
  | some text => IO.FS.writeFile path text
  | none => return

def settingsOf (file : Option String) : IO (Except Failure Settings) := do
  match file with
  | none => return .ok {}
  | some path =>
    let candidates := path :: Settings.notations.map fun (extension, _) => path ++ "." ++ extension
    let directory ← candidates.foldlM addFile {}
    return Settings.ofLayers directory path (← overrides)

/-- A seed from the settings, or any. -/
def seedOf (s : Settings) : IO UInt64 := do
  match s.evolution.seed with
  | some seed => return seed
  | none => return UInt64.ofNat (← IO.rand 0 (UInt64.size - 1))

/-- Evolves under settings and reports. -/
def evolve (s : Settings) : IO (Except Failure String) := do
  let before ← addFile {} s.optimisation.startsFile
  let random := Sampling.Stream.ofSeed (← seedOf s)
  let ((breeder, after), random) := Breeder.prepare s before random
  if !before.contains s.optimisation.startsFile then storeFile after s.optimisation.startsFile
  return breeder.map fun b => (b.run random).1.report

def describe : Failure → String
  | .aborted => "stopped by a number that does not fit its word"
  | f => f.message?.getD "the settings cannot be read"

/-- A program that is stopped ends with another code than one that fails. -/
def exitCode : Failure → UInt32
  | .aborted => 101
  | _ => 1

def run (file : Option String) : IO UInt32 := do
  let outcome ← match ← settingsOf file with
    | .error f => pure (.error f)
    | .ok s => evolve s
  match outcome with
  | .ok report =>
    IO.print report
    return 0
  | .error f =>
    IO.eprintln (describe f)
    return exitCode f

end SwarmEvolution.CommandLine

def main (arguments : List String) : IO UInt32 :=
  SwarmEvolution.CommandLine.run arguments.head?
