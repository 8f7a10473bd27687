import SwarmEvolution.Document.Basic
import SwarmEvolution.Number.Width
import SwarmEvolution.Settings.Basic

/-!
Reading settings from documents. A section is read onto one that is there already: the entries that
the document names are set, all others keep their values, and unknown entries are passed over. How
values of one type are taken from documents is a `Reading`; `Reading.strict` converts nothing but
integers to numbers, and `Reading.toml` differs from it only in what a document may leave over.
-/
namespace SwarmEvolution

/-- How values are taken from documents. -/
structure Reading where
  /-- A count, which fits 64 bits. -/
  count? : Document → Option Nat
  int32? : Document → Option Int32
  single? : Document → Option Float32
  double? : Document → Option Float
  boolean? : Document → Option Bool
  text? : Document → Option String
  /-- What can stand behind a name that is chosen as the only key of a table. -/
  isIdle : Document → Bool
  /-- Whether a list can go on behind the last entry of a section. -/
  isOpenEnded : Bool
  /-- Whether a moment passes for a section, as a table of unknown entries. -/
  takesMoments : Bool

namespace Reading

def strict : Reading where
  count?
    | .integer n => if Number.fitsUInt64 n then some n.toNat else none
    | _ => none
  int32?
    | .integer n => if Number.fitsInt32 n then some (Int32.ofInt n) else none
    | _ => none
  single?
    | .integer n => some (Float32.ofInt n)
    | .real x => some x.toFloat32
    | _ => none
  double?
    | .integer n => some (Float.ofInt n)
    | .real x => some x
    | _ => none
  boolean?
    | .boolean b => some b
    | _ => none
  text?
    | .text s => some s
    | _ => none
  isIdle
    | .null => true
    | _ => false
  isOpenEnded := false
  takesMoments := false

/-- The reading of documents that know no null. -/
def toml : Reading :=
  { strict with
    isIdle := fun
      | .list [] | .table [] => true
      | _ => false
    isOpenEnded := true
    takesMoments := true }

variable (r : Reading)

def seed? (d : Document) : Option UInt64 := (r.count? d).map UInt64.ofNat

/-- A value that can be absent. -/
def optional? (read? : Document → Option α) : Document → Option (Option α)
  | .null => some none
  | d => (read? d).map some

def listOf? (read? : Document → Option α) : Document → Option (List α)
  | .list items => items.mapM read?
  | _ => none

/-- One of a set of names, given as it is or as the only key of a table. -/
def choice? (names : List (String × α)) : Document → Option α
  | .table [(name, d)] => if r.isIdle d then names.lookup name else none
  | d => do names.lookup (← r.text? d)

end Reading

namespace Settings

/-- How one entry of a section is read onto it. -/
abbrev Field (σ : Type) := String × (σ → Document → Option σ)

variable (r : Reading)

/-- Reads a document onto a section. A list sets the entries in their order, from the first on. -/
def amendWith (fields : List (Field σ)) (base : σ) : Document → Option σ
  | .table entries =>
    fields.foldlM (fun s (name, set?) =>
      match entries.lookup name with
      | some d => set? s d
      | none => some s) base
  | .list items =>
    if !r.isOpenEnded && fields.length < items.length then none
    else (fields.zip items).foldlM (fun s ((_, set?), d) => set? s d) base
  | .moment _ => if r.takesMoments then some base else none
  | _ => none

def Evolution.fields : List (Field Evolution) :=
  [("population_size", fun s d => return { s with populationSize := ← r.count? d }),
    ("num_generations", fun s d => return { s with generations := ← r.count? d }),
    ("reproduction_mode", fun s d => return { s with
      reproduction := ← r.choice? [("standard", .standard), ("crowding", .crowding)] d }),
    ("crossover_percent", fun s d => return { s with crossoverPercent := ← r.single? d }),
    ("mutation_percent", fun s d => return { s with mutationPercent := ← r.single? d }),
    ("simplification_percent", fun s d =>
      return { s with simplificationPercent := ← r.single? d }),
    ("reproduction_simplifications", fun s d => return { s with simplifications := ← r.count? d }),
    ("tournament_size", fun s d => return { s with tournamentSize := ← r.count? d }),
    ("max_points_in_program", fun s d => return { s with maxPoints := ← r.count? d }),
    ("max_random_code_size", fun s d => return { s with maxRandomCodeSize := ← r.count? d }),
    ("use_fair_mutation", fun s d => return { s with fairMutation := ← r.boolean? d }),
    ("fair_mutation_range", fun s d => return { s with fairMutationRange := ← r.single? d }),
    ("crowding_set_size", fun s d => return { s with crowdingSetSize := ← r.count? d }),
    ("target_fitness", fun s d =>
      return { s with targetFitness := ← Reading.optional? r.single? d }),
    ("seed", fun s d => return { s with seed := ← Reading.optional? r.seed? d }),
    ("parallel_evaluation", fun s d => return { s with parallelEvaluation := ← r.boolean? d })]

def Machine.fields : List (Field Machine) :=
  [("vector_dimensions", fun s d => return { s with vectorDimensions := ← r.count? d }),
    ("min_random_int", fun s d => return { s with minRandomInt := ← r.int32? d }),
    ("max_random_int", fun s d => return { s with maxRandomInt := ← r.int32? d }),
    ("random_int_resolution", fun s d => return { s with randomIntResolution := ← r.int32? d }),
    ("min_random_float", fun s d => return { s with minRandomFloat := ← r.single? d }),
    ("max_random_float", fun s d => return { s with maxRandomFloat := ← r.single? d }),
    ("random_float_resolution", fun s d =>
      return { s with randomFloatResolution := ← r.single? d }),
    ("execution_limit", fun s d => return { s with executionLimit := ← r.count? d }),
    ("nested_execution_limit", fun s d => return { s with nestedExecutionLimit := ← r.count? d }),
    ("max_nesting_depth", fun s d => return { s with maxNestingDepth := ← r.count? d }),
    ("max_code_points", fun s d => return { s with maxCodePoints := ← r.count? d }),
    ("instructions", fun s d => return { s with instructions := ← Reading.listOf? r.text? d })]

/-- Named lists of coordinates, in the order of their names. -/
def namedPoints? (d : Document) : Option (List (String × List Float32)) :=
  match d with
  | .table entries => do
    let named ← entries.mapM fun (name, d) => return (name, ← Reading.listOf? r.single? d)
    return named.mergeSort fun a b => a.1 ≤ b.1
  | _ => none

def Optimisation.fields : List (Field Optimisation) :=
  [("problems", fun s d => return { s with problems := ← Reading.listOf? r.text? d }),
    ("moves", fun s d => return { s with moves := ← r.count? d }),
    ("runs", fun s d => return { s with runs := ← r.count? d }),
    ("swarm_size", fun s d => return { s with swarmSize := ← r.count? d }),
    ("start_mode", fun s d => return { s with
      startMode := ← r.choice?
        [("random", .random), ("fixed", .fixed), ("share", .share), ("defined", .defined)] d }),
    ("starts_file", fun s d => return { s with startsFile := ← r.text? d }),
    ("evolve_swarm_size", fun s d => return { s with evolveSwarmSize := ← r.boolean? d }),
    ("max_swarm_size", fun s d => return { s with maxSwarmSize := ← r.count? d }),
    ("max_evaluations", fun s d => return { s with maxEvaluations := ← r.count? d }),
    ("swarm_size_mutation_rate", fun s d =>
      return { s with swarmSizeMutationRate := ← r.double? d }),
    ("transform_problems", fun s d => return { s with transformProblems := ← r.boolean? d }),
    ("lower_scale", fun s d => return { s with lowerScale := ← r.single? d }),
    ("upper_scale", fun s d => return { s with upperScale := ← r.single? d }),
    ("lower_translate", fun s d => return { s with lowerTranslate := ← r.single? d }),
    ("upper_translate", fun s d => return { s with upperTranslate := ← r.single? d }),
    ("ensemble_size", fun s d => return { s with ensembleSize := ← r.count? d }),
    ("defined_starts", fun s d => return { s with definedStarts := ← namedPoints? r d })]

def Evolution.amend? (s : Evolution) (d : Document) : Option Evolution :=
  amendWith r (Evolution.fields r) s d

def Machine.amend? (s : Machine) (d : Document) : Option Machine :=
  amendWith r (Machine.fields r) s d

def Optimisation.amend? (s : Optimisation) (d : Document) : Option Optimisation :=
  amendWith r (Optimisation.fields r) s d

def fields : List (Field Settings) :=
  [("evolution", fun s d => return { s with evolution := ← s.evolution.amend? r d }),
    ("interpreter", fun s d => return { s with machine := ← s.machine.amend? r d }),
    ("optimisation", fun s d => return { s with optimisation := ← s.optimisation.amend? r d })]

/-- Reads a document onto all sections. -/
def amend? (s : Settings) (d : Document) : Option Settings := amendWith r (fields r) s d

end Settings
end SwarmEvolution
