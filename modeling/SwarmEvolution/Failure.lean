import SwarmEvolution.Text.Quoted

/-!
What can go wrong, by cause. A cause keeps the data that its text needs; the texts are in
`Failure.message?`.
-/
namespace SwarmEvolution

/-- Why settings are refused. -/
inductive SettingsFault where
  | populationTooSmall
  | negativeShare
  | sharesBothZero
  | simplificationOutOfRange
  | emptyTournament
  | programLimitsTooSmall
  | mutationRangeNotPositive
  | crowdingSetOdd (size : Nat)
  | crowdingSetDoesNotDivide (population size : Nat)
  | noDimensions
  | emptyRandomRange
  | resolutionNotPositive
  | noExecutionSteps
  | noInstructions
  | noProblems
  | noRuns
  | noMoves
  | largestSwarmTooSmall
  | tooFewEvaluations
  | savedStartsForEvolvingSwarm
  | mutationRateOutOfRange
  | badScaleRange
  | badTranslateRange
  | emptyInstructionSet
  /-- A count does not fit the integers of the saved form. -/
  | countTooLargeToSave
  /-- The settings file cannot be read. -/
  | unreadable
  /-- The settings file has a name that no file can have. -/
  | nulInName (name : String)
  deriving DecidableEq, Repr

inductive ProblemFault where
  | unknown (name : String)
  | none
  | dimensionMismatch (name : String) (dimensions vectorDimensions : Nat)
  deriving DecidableEq, Repr

inductive StartFault where
  | undefined (problem : String)
  | valueCount (problem : String) (needed found : Nat)
  | badCoordinate (token : String)
  | coordinateCount (expected found : Nat)
  | endOfFile (file problem : String) (run member : Nat)
  deriving DecidableEq, Repr

inductive Failure where
  | settings (fault : SettingsFault)
  | problem (fault : ProblemFault)
  | startPoints (fault : StartFault)
  | unknownInstruction (name : String)
  /-- A file cannot be read or written. -/
  | file
  /-- A text is no document of the settings language, or not one of settings. -/
  | toml
  /-- A settings file or an override of it does not fit. -/
  | layers
  /-- A document does not have the shape that is read from it. -/
  | document
  /-- A number does not fit its word, or something is to be cut into pieces of nothing. The program
  stops there and reports no failure. -/
  | aborted
  deriving DecidableEq, Repr

namespace SettingsFault

def message : SettingsFault → String
  | populationTooSmall => "Population size must be at least 2"
  | negativeShare => "Crossover and mutation percentages must not be negative"
  | sharesBothZero => "Crossover and mutation percentages must not both be zero"
  | simplificationOutOfRange => "Simplification percentage must be between 0 and 100"
  | emptyTournament => "Tournament size must be at least 1"
  | programLimitsTooSmall => "Program size limits are too small"
  | mutationRangeNotPositive => "Fair mutation range must be positive"
  | crowdingSetOdd size =>
    s!"Crowding set size must be an even number of at least 2, got {size}"
  | crowdingSetDoesNotDivide population size =>
    s!"Population size {population} is not a multiple of the crowding set size {size}"
  | noDimensions => "Vector dimensionality must be at least 1"
  | emptyRandomRange => "Random value ranges must have min <= max"
  | resolutionNotPositive => "Random value resolutions must be positive"
  | noExecutionSteps => "Execution limit must be at least 1"
  | noInstructions => "At least one instruction must be enabled"
  | noProblems => "At least one problem is required"
  | noRuns => "Runs and swarm size must be at least 1"
  | noMoves => "Moves must be at least 1"
  | largestSwarmTooSmall => "Max swarm size must be at least 2 when it evolves"
  | tooFewEvaluations => "Max evaluations must allow at least one move for the largest swarm"
  | savedStartsForEvolvingSwarm => "Saved start points need a fixed swarm size"
  | mutationRateOutOfRange => "Swarm size mutation rate must be between 0 and 1"
  | badScaleRange => "Scale range must be positive with lower <= upper"
  | badTranslateRange => "Translate range must have lower <= upper"
  | emptyInstructionSet => "instruction set must not be empty"
  | countTooLargeToSave => "Failed to serialize: out-of-range value for u64 type"
  | unreadable => "Failed to read config"
  | nulInName name =>
    s!"Failed to read config {name}: file name contained an unexpected NUL byte"

end SettingsFault

def ProblemFault.message : ProblemFault → String
  | .unknown name => s!"Unknown problem: {name}"
  | .none => "no problems to evaluate on"
  | .dimensionMismatch name dimensions vectorDimensions =>
    s!"{name} has {dimensions} dimensions, interpreter vectors have {vectorDimensions}"

def StartFault.message : StartFault → String
  | .undefined problem => s!"no defined starts for {problem}"
  | .valueCount problem needed found => s!"{problem} needs {needed} start values, found {found}"
  | .badCoordinate token => s!"bad coordinate {Text.quote token}: invalid float literal"
  | .coordinateCount expected found => s!"expected {expected} coordinates, found {found}"
  | .endOfFile file problem run member =>
    s!"{file} ends before {problem} run {run} member {member}"

/-- The text of a failure, where it has one of its own. -/
def Failure.message? : Failure → Option String
  | .settings .unreadable => none
  | .settings fault => some ("Configuration error: " ++ fault.message)
  | .problem fault => some ("Problem error: " ++ fault.message)
  | .startPoints fault => some ("Start point error: " ++ fault.message)
  | .unknownInstruction name => some ("Unknown instruction: " ++ name)
  | _ => none

/-- A computation succeeds if all its steps do. -/
theorem Failure.bind_eq_ok_iff {x : Except Failure α} {f : α → Except Failure β} {b : β} :
    x >>= f = .ok b ↔ ∃ a, x = .ok a ∧ f a = .ok b := by
  cases x with
  | error fault => exact ⟨nofun, nofun⟩
  | ok a =>
    constructor
    · exact fun same => ⟨a, rfl, same⟩
    · rintro ⟨_, ⟨⟩, same⟩
      exact same

end SwarmEvolution
