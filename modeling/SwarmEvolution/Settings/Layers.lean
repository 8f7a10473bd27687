import SwarmEvolution.Directory
import SwarmEvolution.Document.Json
import SwarmEvolution.Document.Path
import SwarmEvolution.Document.Toml.Reading
import SwarmEvolution.Settings.Reading

/-!
Settings in layers: the defaults, over them a file, over that the variables whose names begin with
`SWARMFORGE`. The keys of the file and the names of the variables can be paths. Here values of one
type stand for values of another wherever they can.
-/
namespace SwarmEvolution

open Number

namespace Reading

/-- The truth value of a word. -/
def truth? (s : String) : Option Bool :=
  let word := s.toLower
  if ["true", "on", "yes"].contains word then some true
  else if ["false", "off", "no"].contains word then some false
  else none

/-- A whole number: digits, perhaps after a sign. -/
def whole? (s : String) : Option Int :=
  let (negative, digits) := Numeral.splitSign s.toList
  if digits.isEmpty || !digits.all Char.isDigit then none
  else
    let n : Int := Numeral.digitsValue digits
    some (if negative then -n else n)

/-- An integer with sign that fits 64 bits. -/
def int64? (s : String) : Option Int := do
  let n ← whole? s
  if fitsInt64 n then return n else none

/-- A count. A number is rounded, half away from zero, to the nearest count there is. -/
def looseCount? : Document → Option Nat
  | .integer n => if fitsUInt64 n then some n.toNat else none
  | .real x => some x.round.toUInt64.toNat
  | .boolean b => some b.toNat
  | .text s =>
    match truth? s with
    | some b => some b.toNat
    | none => do
      let n ← whole? s
      if s.startsWith "-" || !fitsUInt64 n then none else return n.toNat
  | _ => none

/-- An integer of 64 bits. A number is rounded, half away from zero, to the nearest there is. -/
def looseInteger? : Document → Option Int
  | .integer n => if fitsInt64 n then some n else none
  | .real x => some x.round.toInt64.toInt
  | .boolean b => some b.toNat
  | .text s =>
    match truth? s with
    | some b => some b.toNat
    | none => int64? s
  | _ => none

def looseDouble? : Document → Option Float
  | .integer n => some (Float.ofInt n)
  | .real x => some x
  | .boolean b => some (if b then 1 else 0)
  | .text s =>
    match truth? s with
    | some b => some (if b then 1 else 0)
    | none => readDouble? s
  | _ => none

/-- Numbers are true unless they are zero. -/
def looseBoolean? : Document → Option Bool
  | .integer n => some (n ≠ 0)
  | .real x => some (x != 0)
  | .boolean b => some b
  | .text s => if s = "1" then some true else if s = "0" then some false else truth? s
  | _ => none

def looseText? : Document → Option String
  | .integer n => some (toString n)
  | .real x => some (renderDouble .plain x)
  | .boolean b => some (if b then "true" else "false")
  | .text s | .moment s => some s
  | _ => none

/-- The reading that converts. Integers of 64 bits lose their upper half. -/
def loose : Reading where
  count? := looseCount?
  int32? d := (looseInteger? d).map Int32.ofInt
  single? d := (looseDouble? d).map Float.toFloat32
  double? := looseDouble?
  boolean? := looseBoolean?
  text? := looseText?
  isIdle _ := true
  isOpenEnded := true
  takesMoments := false

end Reading

namespace Settings

/-- What the names of overriding variables begin with, in letters of any case. -/
def overrideMark : String := "SWARMFORGE__"

/-- A name in small letters. One letter that is written otherwise has a plain small form too. -/
def lowered (name : String) : List Char :=
  name.toList.map fun c => if c = '\u212a' then 'k' else c.toLower

/-- A name with a point for every pair of underscores. -/
def pointed : List Char → List Char
  | [] => []
  | '_' :: '_' :: rest => '.' :: pointed rest
  | c :: rest => c :: pointed rest

/-- The path that the variable of a name overrides: what follows the mark, in small letters. -/
def overridePath? (name : String) : Option String :=
  let mark := overrideMark.toLower.toList
  let cs := lowered name
  if mark.isPrefixOf cs then some (String.ofList (pointed (cs.drop mark.length))) else none

/-- The value that the text of a variable stands for: a truth value, an integer or a number if it
reads as one, in this order. -/
def overrideValue (text : String) : Document :=
  if text.toLower = "true" then .boolean true
  else if text.toLower = "false" then .boolean false
  else match Reading.int64? text with
    | some n => .integer n
    | none => match readDouble? text with
      | some x => .real x
      | none => .text text

/-- Lays variables, given by name and text, over a document. Those of other names are ignored. -/
def override (overrides : List (String × String)) (d : Document) : Document :=
  overrides.foldl (fun d (name, text) =>
    match overridePath? name with
    | some path => d.lay path (overrideValue text)
    | none => d) d

/-- The notations of settings files, by the extensions of their names. -/
def notations : List (String × (String → Option Document)) :=
  [("toml", Document.Toml.read? .extended), ("json", Document.Json.read?)]

/-- The extension of a file name: what follows the last point, if something stands before it. -/
def extension (name : String) : String :=
  let cs := name.toList.reverse
  match cs.dropWhile (· ≠ '.') with
  | _ :: _ :: _ => String.ofList (cs.takeWhile (· ≠ '.')).reverse
  | _ => ""

/-- A text without a byte order mark in front of it. -/
def unmarked (text : String) : String :=
  match text.toList with
  | '\ufeff' :: cs => String.ofList cs
  | _ => text

/-- The text of a settings file and how it is read. A file can be named without its extension. -/
def file? (directory : Directory) (path : String) :
    Option (String × (String → Option Document)) := do
  match directory.read? path with
  | some text => return (text, ← notations.lookup (extension (← Directory.fileName? path)))
  | none =>
    let stem ← Directory.trim? path
    notations.findSome? fun (extension, read?) =>
      (directory.read? (stem ++ "." ++ extension)).map (·, read?)

/-- The document in a settings file, every key of which is laid over what there is as a path. -/
def readFile? (directory : Directory) (path : String) : Option Document := do
  let (text, read?) ← file? directory path
  match ← read? (unmarked text) with
  | .table entries => return entries.foldl (fun d (key, value) => d.lay key value) (.table [])
  | _ => none

/-- The settings of a file with variables laid over it. -/
def ofLayers (directory : Directory) (path : String) (overrides : List (String × String)) :
    Except Failure Settings := do
  let some d := readFile? directory path | throw .layers
  let some s := amend? .loose {} (override overrides d) | throw .layers
  s.validate
  return s

end Settings
end SwarmEvolution
