import SwarmEvolution.Directory
import SwarmEvolution.Problem.Selection

/-!
Where swarm members start: at random points, or at points from a table by problem, run and member.
The table can be drawn once, listed in the settings, or shared through a file. A file of start
points has one point a line, its coordinates apart by blanks, in the order problem, run, member;
`parse` reads what `render` writes.
-/
namespace SwarmEvolution

open Sampling

/-- Points by problem, run and member. -/
abbrev StartTable := List (List (List Point))

inductive StartPoints where
  | random
  | fixed (table : StartTable)

namespace StartTable

/-- A table drawn from the boxes of the problems. -/
def draw (problems : List Problem) (runs members : Nat) : Draw StartTable :=
  Draw.each (fun p => Draw.times runs (Draw.times members p.randomPoint)) problems

/-- The line of one point. -/
def renderPoint (p : Point) : String := " ".intercalate (p.map (Number.render .plain))

def render (t : StartTable) : String :=
  String.join (t.flatten.flatten.map fun p => renderPoint p ++ "\n")

/-- The numbers that the words spell, up to the first word that spells none. -/
def coordinates : List (List Char) → Except Failure Point
  | [] => .ok []
  | w :: rest =>
    match (Number.Numeral.read? w).map Number.ofNumeral with
    | none => .error (.startPoints (.badCoordinate (String.ofList w)))
    | some x => (coordinates rest).map (x :: ·)

/-- The point of a line. Words beyond the dimensions are passed over. -/
def parsePoint (dimensions : Nat) (line : List Char) : Except Failure Point := do
  let p ← coordinates ((Text.words line).take dimensions)
  if p.length = dimensions then return p
  else throw (.startPoints (.coordinateCount dimensions p.length))

/-- Reads one item of each label, one after another. -/
def parseEach (parse : β → List (List Char) → Except Failure (α × List (List Char))) :
    List β → List (List Char) → Except Failure (List α × List (List Char))
  | [], lines => .ok ([], lines)
  | b :: rest, lines => do
    let (a, lines) ← parse b lines
    let (as, lines) ← parseEach parse rest lines
    return (a :: as, lines)

def parseMember (file : String) (p : Problem) (run member : Nat) :
    List (List Char) → Except Failure (Point × List (List Char))
  | [] => .error (.startPoints (.endOfFile file p.name run member))
  | line :: lines => (parsePoint p.dimensions line).map (·, lines)

/-- Reads a table from the text of a file; blank lines are passed over, and so are lines after the
last one needed. -/
def parse (file text : String) (problems : List Problem) (runs members : Nat) :
    Except Failure StartTable := do
  let lines := (Text.lines text.toList).filter fun l => !l.all Text.isBlank
  let (table, _) ← parseEach (fun p =>
    parseEach (fun run => parseEach (parseMember file p run) (List.range members))
      (List.range runs)) problems lines
  return table

/-- Writes a table to a file. -/
def save (t : StartTable) (d : Directory) (file : String) : Except Failure Directory :=
  match d.write? file t.render with
  | some d => .ok d
  | none => .error .file

def load (d : Directory) (file : String) (problems : List Problem) (runs members : Nat) :
    Except Failure StartTable :=
  match d.read? file with
  | some text => parse file text problems runs members
  | none => .error .file

/-- Cuts a list into `count` pieces of `n` elements, of which the last can have fewer. -/
def pieces (n : Nat) : (count : Nat) → List Float32 → List Point
  | 0, _ => []
  | count + 1, xs => xs.take n :: pieces n count (xs.drop n)

/-- Cuts a list into pieces of `n` elements; there is no cutting into pieces of none. -/
def cut (n : Nat) (xs : List Float32) : Except Failure (List Point) :=
  if n = 0 then .error .aborted else .ok (pieces n ((xs.length + n - 1) / n) xs)

/-- How many coordinates the members of a swarm have together, if a word of 64 bits can count
them. -/
def valuesNeeded (members dimensions : Nat) : Except Failure Nat :=
  if members * dimensions < UInt64.size then .ok (members * dimensions) else .error .aborted

/-- The points that the settings list for one problem, the same for every run. -/
def ofSettings (s : Settings.Optimisation) (p : Problem) : Except Failure (List (List Point)) := do
  match s.definedStarts.lookup p.name with
  | none => throw (.startPoints (.undefined p.name))
  | some values =>
    let needed ← valuesNeeded s.swarmSize p.dimensions
    if values.length < needed then
      throw (.startPoints (.valueCount p.name needed values.length))
    else
      let members ← cut p.dimensions (values.take needed)
      return List.replicate s.runs members

end StartTable

namespace StartPoints

/-- The start points that the settings ask for. Shared ones are read from their file if it is there
and written to it otherwise. -/
def prepare (s : Settings.Optimisation) (problems : List Problem) (d : Directory) :
    Draw (Except Failure StartPoints × Directory) := do
  match s.startMode with
  | .random => return (.ok .random, d)
  | .fixed => return (.ok (.fixed (← StartTable.draw problems s.runs s.swarmSize)), d)
  | .share =>
    if d.contains s.startsFile then
      return ((StartTable.load d s.startsFile problems s.runs s.swarmSize).map .fixed, d)
    else
      let table ← StartTable.draw problems s.runs s.swarmSize
      match table.save d s.startsFile with
      | .ok d => return (.ok (.fixed table), d)
      | .error f => return (.error f, d)
  | .defined => return ((problems.mapM (StartTable.ofSettings s)).map .fixed, d)

def get? : StartPoints → (problem run member : Nat) → Option Point
  | .random, _, _, _ => none
  | .fixed table, problem, run, member => do
    let runs ← table[problem]?
    let members ← runs[run]?
    members[member]?

end StartPoints
end SwarmEvolution
