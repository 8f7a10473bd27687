import SwarmEvolution.Document.Basic
import SwarmEvolution.Number.Width
import SwarmEvolution.Number.Decimal

/-!
Paths into documents. A path is written as the key of a table, then further keys behind points and
positions in brackets; a negative position counts from the end of its list. Whatever is missing on
the way is made, and what is no table or no list gives way to one.
-/
namespace SwarmEvolution.Document

open Number

inductive Step where
  | key (name : String)
  | item (position : Int)
  deriving DecidableEq, Repr

/-- A character of a key within a path. -/
def isKeyPart (c : Char) : Bool := c.isAlphanum || c = '_' || c = '-'

/-- A key and the rest. -/
def key? (cs : List Char) : Option (Step × List Char) :=
  let name := cs.takeWhile isKeyPart
  if name.isEmpty then none else some (.key (String.ofList name), cs.dropWhile isKeyPart)

/-- A position up to its closing bracket, with blanks around it, and the rest. -/
def position? (cs : List Char) : Option (Step × List Char) :=
  let skip (cs : List Char) : List Char := cs.dropWhile fun c => c = ' ' || c = '\t'
  let (negative, cs) := match skip cs with
    | '-' :: cs => (true, cs)
    | cs => (false, cs)
  let digits := cs.takeWhile Char.isDigit
  let size : Int := Numeral.digitsValue digits
  let position := if negative then -size else size
  match skip (cs.dropWhile Char.isDigit) with
  | ']' :: rest =>
    if digits.isEmpty || !fitsInt64 position then none else some (.item position, rest)
  | _ => none

/-- The steps after the first; the number bounds how many there are. -/
def steps? : Nat → List Char → Option (List Step)
  | _, [] => some []
  | n + 1, '.' :: cs => do
    let (step, rest) ← key? cs
    return step :: (← steps? n rest)
  | n + 1, '[' :: cs => do
    let (step, rest) ← position? cs
    return step :: (← steps? n rest)
  | _, _ => none

/-- Reads a path. -/
def path? (text : String) : Option (List Step) := do
  let (step, rest) ← key? text.toList
  return step :: (← steps? rest.length rest)

/-- A list made long enough to have a position, and the index that the position has in it. -/
def reach (position : Int) (items : List Document) : List Document × Nat :=
  if 0 ≤ position then
    (items ++ List.replicate (position.toNat + 1 - items.length) .null, position.toNat)
  else
    let back := (-position).toNat
    (List.replicate (back - items.length) .null ++ items, items.length - back)

/-- Changes what a path leads to. -/
def change (f : Document → Document) : List Step → Document → Document
  | [], d => f d
  | .key name :: path, d =>
    .table (insert name (change f path ((d.entries.lookup name).getD .null)) d.entries)
  | .item position :: path, d =>
    let (items, index) := reach position d.items
    .list (items.set index (change f path (items.getD index .null)))

/-- Lays a value over what a text leads to; a text that is no path is a key as a whole. -/
def lay (d : Document) (text : String) (value : Document) : Document :=
  change (merge value) ((path? text).getD [.key text]) d

end SwarmEvolution.Document
