import SwarmEvolution.Instruction
import SwarmEvolution.Number.Single

/-!
Code trees and programs. A point is a node of a tree; points are counted in preorder, the tree
itself being point 0, so `(a (b c))` has the points `(a (b c))`, `a`, `(b c)`, `b`, `c`. The edits
below all replace one point by a list of trees in its parent's list.
-/
namespace SwarmEvolution

inductive Atom where
  | instruction (i : Instruction)
  | integer (n : Int32)
  | float (x : Float32)
  | boolean (b : Bool)
  deriving BEq

inductive Code where
  | atom (a : Atom)
  | list (items : List Code)

namespace Code

instance : Inhabited Code := ⟨.list []⟩

/-- An instruction as code. -/
def instruction (i : Instruction) : Code := .atom (.instruction i)

def isList : Code → Bool
  | .atom _ => false
  | .list _ => true

/-- The items of a list, or an atom as the only item. -/
def toItems : Code → List Code
  | .list items => items
  | c => [c]

mutual

/-- The number of points. -/
def points : Code → Nat
  | .atom _ => 1
  | .list items => 1 + pointsOfAll items

/-- The points of all trees together. -/
def pointsOfAll : List Code → Nat
  | [] => 0
  | c :: rest => c.points + pointsOfAll rest

end

mutual

/-- Equality of trees. Floats are compared as numbers: `0.0` equals `-0.0`, and what is no number
equals nothing. -/
def equal : Code → Code → Bool
  | .atom a, .atom b => a == b
  | .list items, .list others => equalAll items others
  | _, _ => false

def equalAll : List Code → List Code → Bool
  | [], [] => true
  | c :: rest, d :: others => c.equal d && equalAll rest others
  | _, _ => false

end

instance : BEq Code := ⟨equal⟩

mutual

/-- The point with a given index. -/
def subtree? : Code → Nat → Option Code
  | c, 0 => some c
  | .atom _, _ + 1 => none
  | .list items, n + 1 => subtreeOfAll? items n

/-- The point with a given index when the points of several trees are counted on. -/
def subtreeOfAll? : List Code → Nat → Option Code
  | [], _ => none
  | c :: rest, n => if n < c.points then c.subtree? n else subtreeOfAll? rest (n - c.points)

end

mutual

/-- Replaces the point with a given index by the trees that `edit` makes of it. Nothing comes out
when there is no such point or `edit` refuses it. -/
def spliceOfAll? (edit : Code → Option (List Code)) : List Code → Nat → Option (List Code)
  | [], _ => none
  | c :: rest, 0 => (edit c).map (· ++ rest)
  | c :: rest, n + 1 =>
    if n + 1 < c.points then (spliceBelow? edit c n).map (· :: rest)
    else (spliceOfAll? edit rest (n + 1 - c.points)).map (c :: ·)

/-- The same for the points below a tree's own. -/
def spliceBelow? (edit : Code → Option (List Code)) : Code → Nat → Option Code
  | .atom _, _ => none
  | .list items, n => (spliceOfAll? edit items n).map .list

end

/-- Edits the point with a positive index; the tree itself has no list to stand in. -/
def splice? (edit : Code → Option (List Code)) (c : Code) : Nat → Option Code
  | 0 => none
  | n + 1 => spliceBelow? edit c n

/-- Takes a point out of its list. -/
def remove? : Code → Nat → Option Code := splice? fun _ => some []

/-- Puts the items of a point that is a list in its place. -/
def flatten? : Code → Nat → Option Code :=
  splice? fun
    | .list items => some items
    | .atom _ => none

/-- Puts another tree in the place of a point. -/
def replace? (c : Code) (index : Nat) (replacement : Code) : Option Code :=
  if index = 0 then some replacement else splice? (fun _ => some [replacement]) c index

mutual

/-- The atoms from left to right. -/
def atoms : Code → List Atom
  | .atom a => [a]
  | .list items => atomsOfAll items

def atomsOfAll : List Code → List Atom
  | [] => []
  | c :: rest => c.atoms ++ atomsOfAll rest

end

end Code

/-- A program is a list of code, so its tree is never a bare atom. -/
structure Program where
  items : List Code

namespace Program

instance : Inhabited Program := ⟨⟨[]⟩⟩

def toCode (p : Program) : Code := .list p.items

/-- The program with a given tree; a bare atom becomes its only item. -/
def ofCode (c : Code) : Program := ⟨c.toItems⟩

instance : BEq Program := ⟨fun p q => p.toCode == q.toCode⟩

def points (p : Program) : Nat := p.toCode.points

def subtree? (p : Program) (index : Nat) : Option Code := p.toCode.subtree? index

/-- The size of a point, zero if there is none. -/
def subtreePoints (p : Program) (index : Nat) : Nat :=
  match p.subtree? index with
  | some c => c.points
  | none => 0

/-- Replaces a point; an index beyond the points changes nothing. -/
def replace (p : Program) (index : Nat) (replacement : Code) : Program :=
  match p.toCode.replace? index replacement with
  | some c => ofCode c
  | none => p

def remove? (p : Program) (index : Nat) : Option Program := (p.toCode.remove? index).map ofCode

def flatten? (p : Program) (index : Nat) : Option Program := (p.toCode.flatten? index).map ofCode

end Program
end SwarmEvolution
