/-!
A directory of text files, as far as this library sees it: names and contents. There are no
directories within it, so a path names a file of it only if nothing but steps in place lead to the
name. Names and paths have a greatest length and cannot hold a NUL.
-/
namespace SwarmEvolution

structure Directory where
  files : List (String × String) := []

namespace Directory

/-- The parts of a path between slashes. -/
def pathParts : List Char → List (List Char)
  | [] => [[]]
  | c :: rest =>
    if c = '/' then [] :: pathParts rest
    else match pathParts rest with
      | [] => [[c]]
      | part :: parts => (c :: part) :: parts

/-- Whether a part of a path stays in place. -/
def isStill (part : List Char) : Bool := part = [] || part = ['.']

/-- The most bytes that a name within a path may have. -/
def longestName : Nat := 255

/-- The most bytes that a path may have. -/
def longestPath : Nat := 4095

/-- Whether there is a NUL in a path. -/
def hasNul (path : String) : Bool := path.toList.any fun c => c.toNat = 0

/-- Whether something can be looked up under a path. -/
def isPath (path : String) : Bool :=
  !hasNul path && path.utf8ByteSize ≤ longestPath
    && (pathParts path.toList).all fun part => (String.ofList part).utf8ByteSize ≤ longestName

/-- The file that a path names: the last part, after parts that stay in place. -/
def fileName? (path : String) : Option String :=
  match (pathParts path.toList).reverse with
  | [] => none
  | name :: before =>
    let absolute := before.getLast? = some []
    if !isPath path || isStill name || name = ['.', '.'] || absolute || !before.all isStill then
      none
    else some (String.ofList name)

/-- A path without the parts at its end that stay in place, unless nothing or a step out is
left. -/
def trim? (path : String) : Option String :=
  match (pathParts path.toList).reverse.dropWhile isStill with
  | [] => none
  | name :: before =>
    if name = ['.', '.'] then none
    else some ("/".intercalate ((name :: before).reverse.map String.ofList))

/-- Whether a path names this directory or one around it. -/
def isAround (path : String) : Bool :=
  path ≠ "" && isPath path
    && (pathParts path.toList).all fun part => isStill part || part = ['.', '.']

def read? (d : Directory) (path : String) : Option String := do d.files.lookup (← fileName? path)

/-- Whether there is something at a path. -/
def contains (d : Directory) (path : String) : Bool := (d.read? path).isSome || isAround path

/-- Writes a file, over one of the same name if there is one. -/
def write? (d : Directory) (path text : String) : Option Directory := do
  let name ← fileName? path
  return ⟨(name, text) :: d.files.filter (·.1 != name)⟩

end Directory
end SwarmEvolution
