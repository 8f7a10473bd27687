import SwarmEvolution.Document.Basic
import SwarmEvolution.Document.Toml.Dialect

/-!
Tables while their lines are read. A table is stated by a header, implied by the header of a table
within it, or comes from the points of a key. A header states a table once; a key with points never
reaches into a table that a header states, and only the last table of an array is reached at all.
-/
namespace SwarmEvolution.Document.Toml

/-- How a table came into being. -/
inductive Origin where
  | stated | implied | pointed
  deriving DecidableEq, Repr

/-- A value of a table that is being read. -/
inductive Draft where
  | value (d : Document)
  | table (origin : Origin) (entries : List (String × Draft))
  /-- An array of tables, by those that are complete and the entries of the last one. -/
  | array (front : List Document) (last : List (String × Draft))

namespace Draft

mutual

def toDocument : Draft → Document
  | value d => d
  | table _ entries => .table (finish entries)
  | array front last => .list (front ++ [.table (finish last)])

/-- The entries as they stand. -/
def finish : List (String × Draft) → List (String × Document)
  | [] => []
  | (key, draft) :: rest => (key, draft.toDocument) :: finish rest

end

abbrev Entries := List (String × Draft)

/-- Sets a value in its place, or behind all others if it is new. -/
def put (entries : Entries) (key : String) (draft : Draft) : Entries :=
  match entries with
  | [] => [(key, draft)]
  | (k, d) :: rest => if k = key then (k, draft) :: rest else (k, d) :: put rest key draft

/-- Changes the table at the end of a path. Missing tables on the way are of the origin `fresh`, and
the path leads only through tables of origins that it `passes`. -/
def change (fresh : Origin) (passes : Origin → Bool) (f : Origin → Entries → Option Entries) :
    List String → Origin → Entries → Option Entries
  | [], origin, entries => f origin entries
  | key :: path, _, entries =>
    match entries.lookup key with
    | none => do
      return put entries key (.table fresh (← change fresh passes f path fresh []))
    | some (.table origin inner) => do
      if passes origin then
        return put entries key (.table origin (← change fresh passes f path origin inner))
      else none
    | some (.array front last) => do
      return put entries key (.array front (← change fresh passes f path .stated last))
    | some (.value _) => none

/-- Changes the table at the end of the path of a header. -/
def within (path : List String) (f : Origin → Entries → Option Entries) (entries : Entries) :
    Option Entries :=
  change .implied (fun _ => true) f path .stated entries

/-- Whether a key with points can end in a table of some origin. -/
def canEnd (d : Dialect) : Origin → Bool
  | .stated => false
  | .implied => d.entersImplied
  | .pointed => true

/-- Adds the value of a key, given by its parts, to a table. Where there are parts before the last
one, the table that they lead to has to be one that they can end in. -/
def assign (dialect : Dialect) (path : List String) (last : String) (d : Document)
    (origin : Origin) (entries : Entries) : Option Entries :=
  change .pointed (· ≠ .stated) (fun origin entries =>
    if (!path.isEmpty && !canEnd dialect origin) || (entries.lookup last).isSome then none
    else some (put entries last (.value d))) path origin entries

/-- States a table. -/
def state (last : String) (entries : Entries) : Option Entries :=
  match entries.lookup last with
  | none => some (put entries last (.table .stated []))
  | some (.table .implied inner) => some (put entries last (.table .stated inner))
  | some _ => none

/-- Begins the next table of an array. -/
def extend (last : String) (entries : Entries) : Option Entries :=
  match entries.lookup last with
  | none => some (put entries last (.array [] []))
  | some (.array front inner) =>
    some (put entries last (.array (front ++ [.table (finish inner)]) []))
  | some _ => none

end Draft
end SwarmEvolution.Document.Toml
