import SwarmEvolution.Document.Toml.Scalar

/-!
Writing documents in TOML. The values of a table come first, each on a line of its own, then the
tables within it under headers of their own. Lists of two or more items have a line for each item.
Values that are null are left out.
-/
namespace SwarmEvolution.Document.Toml

open Number

/-- How often a character occurs in a row at most. -/
def longestRun (c : Char) (cs : List Char) : Nat := go 0 0 cs
where
  go (longest now : Nat) : List Char → Nat
    | [] => max longest now
    | d :: ds => if d = c then go longest (now + 1) ds else go (max longest now) 0 ds

/-- A control character other than the tab, which only an escape can stand for on a line. -/
def needsEscape (c : Char) : Bool := !isPlain c

/-- A character in marks that know escapes, where a line end can stand for itself or not. -/
def escape (multiline : Bool) (c : Char) : List Char :=
  match c with
  | '\x08' => ['\\', 'b']
  | '\t' => ['\\', 't']
  | '\n' => if multiline then ['\n'] else ['\\', 'n']
  | '\x0c' => ['\\', 'f']
  | '\r' => ['\\', 'r']
  | '\\' => ['\\', '\\']
  | c =>
    if needsEscape c then
      let digits := (Nat.toDigits 16 c.toNat).map Char.toUpper
      ['\\', 'u'] ++ List.replicate (4 - digits.length) '0' ++ digits
    else [c]

/-- Text in double marks that know escapes. Of the marks in a row that `spare` allows, none needs an
escape. -/
def escapeAll (multiline : Bool) (spare : Nat) : Nat → List Char → List Char
  | _, [] => []
  | marks, '"' :: rest =>
    if marks < spare then '"' :: escapeAll multiline spare (marks + 1) rest
    else '\\' :: '"' :: escapeAll multiline spare 0 rest
  | _, c :: rest => escape multiline c ++ escapeAll multiline spare 0 rest

/-- Text on one line in double marks. -/
def basic (cs : List Char) : List Char := '"' :: escapeAll false 0 0 cs ++ ['"']

/-- Text on one line in marks that leave it as it is, double ones if they do. -/
def oneLine? (cs : List Char) : Option (List Char) :=
  if cs.any needsEscape then none
  else if !cs.contains '"' && !cs.contains '\\' then some (basic cs)
  else if !cs.contains '\'' then some ('\'' :: cs ++ ['\''])
  else none

def renderKey (key : String) : String :=
  let cs := key.toList
  if !cs.isEmpty && cs.all isBare then key else String.ofList ((oneLine? cs).getD (basic cs))

/-- Text in three marks, which are double ones or single ones without escapes. A text with line ends
begins on a line of its own. -/
def block (escapes : Bool) (cs : List Char) : List Char :=
  let opening := if cs.contains '\n' then ['\n'] else []
  let marks := List.replicate 3 (if escapes then '"' else '\'')
  marks ++ opening ++ (if escapes then escapeAll true 2 0 cs else cs) ++ marks

/-- A text in the first marks that leave it as it is, else with escapes. -/
def renderText (text : String) : String :=
  let cs := text.toList
  let plain := !cs.any fun c => needsEscape c && c ≠ '\n'
  String.ofList <| (oneLine? cs).getD <|
    if plain && !cs.contains '\\' && longestRun '"' cs ≤ 2 then block true cs
    else if plain && longestRun '\'' cs ≤ 2 then block false cs
    else if cs.contains '\n' then block true cs
    else basic cs

/-- The items of a list in brackets. -/
def bracketed : List String → String
  | [] => "[]"
  | [item] => "[" ++ item ++ "]"
  | items => "[" ++ String.join (items.map fun item => "\n    " ++ item ++ ",") ++ "\n]"

mutual

/-- A value after its key; none if there is an integer beyond 64 bits with sign. -/
def renderValue? : Document → Option String
  | .null => some ""
  | .boolean b => some (if b then "true" else "false")
  | .integer n => if fitsInt64 n then some (toString n) else none
  | .real x => some (renderDouble .settings x)
  | .text s => some (renderText s)
  | .moment s => some s
  | .list items => (renderItems? items).map bracketed
  | .table entries => (renderPairs? entries).map fun pairs =>
    if pairs.isEmpty then "\x7b\x7d" else "\x7b " ++ ", ".intercalate pairs ++ " \x7d"

def renderItems? : List Document → Option (List String)
  | [] => some []
  | d :: ds => do return (← renderValue? d) :: (← renderItems? ds)

/-- Keys with their values. -/
def renderPairs? : List (String × Document) → Option (List String)
  | [] => some []
  | (_, .null) :: rest => renderPairs? rest
  | (key, d) :: rest => do
    return (renderKey key ++ " = " ++ (← renderValue? d)) :: (← renderPairs? rest)

end

def isTable : Document → Bool
  | .table _ => true
  | _ => false

/-- The lines of a table's own values, under its header unless it only holds other tables. -/
def block? (path : List String) (entries : List (String × Document)) : Option (List String) := do
  let values := entries.filter fun (_, d) => !isTable d
  let pairs ← renderPairs? values
  let header := if path.isEmpty then [] else ["[" ++ ".".intercalate (path.map renderKey) ++ "]"]
  let shown := !pairs.isEmpty || (entries.isEmpty && !path.isEmpty)
  return if shown then [String.join ((header ++ pairs).map (· ++ "\n"))] else []

mutual

/-- The blocks of a document at a path: its own, then those of the tables within it. -/
def blocks? (path : List String) : Document → Option (List String)
  | .table entries => do return (← block? path entries) ++ (← innerBlocks? path entries)
  | _ => some []

def innerBlocks? (path : List String) : List (String × Document) → Option (List String)
  | [] => some []
  | (key, d) :: rest => do return (← blocks? (path ++ [key]) d) ++ (← innerBlocks? path rest)

end

/-- The text of a table, with an empty line between blocks. -/
def render? (d : Document) : Option String := ("\n".intercalate ·) <$> blocks? [] d

end SwarmEvolution.Document.Toml
