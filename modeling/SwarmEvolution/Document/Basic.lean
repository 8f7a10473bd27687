/-!
Documents: the trees of plain values that settings files hold, whatever notation they are written
in. The keys of a table differ.
-/
namespace SwarmEvolution

inductive Document where
  | null
  | boolean (b : Bool)
  | integer (n : Int)
  | real (x : Float)
  | text (s : String)
  /-- A date or time of day, as written. -/
  | moment (s : String)
  | list (items : List Document)
  | table (entries : List (String × Document))

namespace Document

instance : Inhabited Document := ⟨.null⟩

/-- The items of a list, none for anything else. -/
def items : Document → List Document
  | .list items => items
  | _ => []

/-- The entries of a table, none for anything else. -/
def entries : Document → List (String × Document)
  | .table entries => entries
  | _ => []

/-- The value of a key in a table. -/
def get? (d : Document) (key : String) : Option Document := d.entries.lookup key

/-- Sets a key in its place, or behind all others if it is new. -/
def insert (key : String) (d : Document) : List (String × Document) → List (String × Document)
  | [] => [(key, d)]
  | (k, e) :: rest => if k = key then (k, d) :: rest else (k, e) :: insert key d rest

mutual

/-- A value laid over what is there: a table sets its entries one by one, and anything else takes
the place. -/
def merge (value base : Document) : Document :=
  match value with
  | .table entries => .table (mergeEntries entries base.entries)
  | value => value

/-- Entries laid over those that are there. -/
def mergeEntries : List (String × Document) → List (String × Document) →
    List (String × Document)
  | [], base => base
  | (key, value) :: rest, base =>
    mergeEntries rest (insert key (merge value ((base.lookup key).getD .null)) base)

end

end Document
end SwarmEvolution
