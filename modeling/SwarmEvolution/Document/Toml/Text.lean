import SwarmEvolution.Document.Toml.Dialect
import SwarmEvolution.Number.Digit

/-!
The parts of TOML below the values: blanks, comments, line ends, quoted text and keys. A reader
gives what it has read and the characters after it.
-/
namespace SwarmEvolution.Document.Toml

open Number

def isBlank (c : Char) : Bool := c = ' ' || c = '\t'

/-- A character that can stand for itself in a comment or in quotes: no control character but the
tab. -/
def isPlain (c : Char) : Bool := c = '\t' || (' ' ≤ c && c ≠ '\x7f')

/-- The characters without the blanks at their front. -/
def skip (cs : List Char) : List Char := cs.dropWhile isBlank

/-- What follows a line end. -/
def newline? : List Char → Option (List Char)
  | '\n' :: rest => some rest
  | '\r' :: '\n' :: rest => some rest
  | _ => none

/-- What follows the end of a line that holds nothing more than a comment. -/
def lineEnd? (cs : List Char) : Option (List Char) :=
  let rest := match skip cs with
    | '#' :: rest => rest.dropWhile isPlain
    | rest => rest
  if rest.isEmpty then some [] else newline? rest

/-- The characters without blanks, line ends and comments at their front; at first `comment` says
whether they begin within a comment. -/
def skipLines (comment : Bool) : List Char → List Char
  | [] => []
  | '\n' :: rest => skipLines false rest
  | '\r' :: '\n' :: rest => skipLines false rest
  | c :: rest =>
    if comment then if isPlain c then skipLines true rest else c :: rest
    else if c = '#' then skipLines true rest
    else if isBlank c then skipLines false rest
    else c :: rest

/-- The characters without blanks and line ends at their front. -/
def skipBreaks : List Char → List Char
  | [] => []
  | '\r' :: '\n' :: rest => skipBreaks rest
  | c :: rest => if c = '\n' || isBlank c then skipBreaks rest else c :: rest

/-- A way to quote text. -/
structure Quoting where
  mark : Char
  /-- Whether a backslash begins an escape. -/
  escapes : Bool
  /-- Whether the text stands in three marks and can hold line ends. -/
  multiline : Bool
  dialect : Dialect

/-- The character of a code of `count` hexadecimal digits. -/
def coded? (count : Nat) (cs : List Char) : Option (Char × List Char) := do
  let digits ← (cs.take count).mapM (digit? 16)
  let code := ofDigits 16 digits
  if digits.length = count && code.isValidChar then return (Char.ofNat code, cs.drop count)
  else none

/-- The character of an escape, after the backslash. -/
def escaped? (d : Dialect) : List Char → Option (Char × List Char)
  | 'b' :: rest => some ('\x08', rest)
  | 't' :: rest => some ('\t', rest)
  | 'n' :: rest => some ('\n', rest)
  | 'f' :: rest => some ('\x0c', rest)
  | 'r' :: rest => some ('\r', rest)
  | '"' :: rest => some ('"', rest)
  | '\\' :: rest => some ('\\', rest)
  | 'u' :: rest => coded? 4 rest
  | 'U' :: rest => coded? 8 rest
  | 'e' :: rest => if d.relaxed then some ('\x1b', rest) else none
  | 'x' :: rest => if d.relaxed then coded? 2 rest else none
  | _ => none

namespace Quoting

variable (q : Quoting)

/-- The end of the text. Of up to five marks in a row the last three close a text in three marks,
and the others belong to it. -/
def close? (cs : List Char) : Option (List Char × List Char) :=
  let marks := (cs.takeWhile (· = q.mark)).length
  if q.multiline then
    let inside := min (marks - 3) 2
    if 3 ≤ marks then some (List.replicate inside q.mark, cs.drop (inside + 3)) else none
  else if 0 < marks then some ([], cs.drop 1)
  else none

/-- The next characters of the text. A backslash at the end of a line takes the blanks and line
ends after it away. -/
def step? (cs : List Char) : Option (List Char × List Char) :=
  match cs with
  | [] => none
  | c :: rest =>
    if q.escapes && c = '\\' then
      match newline? (skip rest) with
      | some rest => if q.multiline then some ([], skipBreaks rest) else none
      | none => (escaped? q.dialect rest).map fun (c, rest) => ([c], rest)
    else match newline? cs with
      | some rest => if q.multiline then some (['\n'], rest) else none
      | none => if isPlain c then some ([c], rest) else none

/-- The text up to its closing mark; the number bounds the recursion. -/
def body? : Nat → List Char → Option (List Char × List Char)
  | 0, _ => none
  | n + 1, cs =>
    match q.close? cs with
    | some closed => some closed
    | none => do
      let (front, rest) ← q.step? cs
      let (tail, rest) ← body? n rest
      return (front ++ tail, rest)

/-- The text after its opening mark. -/
def text? (cs : List Char) : Option (String × List Char) :=
  (q.body? (cs.length + 1) cs).map fun (body, rest) => (String.ofList body, rest)

end Quoting

variable (d : Dialect)

/-- A text in single marks, on one line. -/
def lineText? : List Char → Option (String × List Char)
  | '"' :: rest => Quoting.text? ⟨'"', true, false, d⟩ rest
  | '\'' :: rest => Quoting.text? ⟨'\'', false, false, d⟩ rest
  | _ => none

/-- A text in any marks. A line end right after three marks is no part of it. -/
def text? : List Char → Option (String × List Char)
  | '"' :: '"' :: '"' :: rest => Quoting.text? ⟨'"', true, true, d⟩ ((newline? rest).getD rest)
  | '\'' :: '\'' :: '\'' :: rest =>
    Quoting.text? ⟨'\'', false, true, d⟩ ((newline? rest).getD rest)
  | cs => lineText? d cs

/-- A character of a key without quotes. -/
def isBare (c : Char) : Bool := c.isAlphanum || c = '_' || c = '-'

/-- One part of a key. -/
def part? (cs : List Char) : Option (String × List Char) :=
  match lineText? d cs with
  | some found => some found
  | none =>
    let name := cs.takeWhile isBare
    if name.isEmpty then none else some (String.ofList name, cs.dropWhile isBare)

/-- A key: parts with points between them; the number bounds the recursion. -/
def parts? : Nat → List Char → Option (List String × List Char)
  | 0, _ => none
  | n + 1, cs => do
    let (part, rest) ← part? d (skip cs)
    match skip rest with
    | '.' :: rest =>
      let (parts, rest) ← parts? n rest
      return (part :: parts, rest)
    | rest => return ([part], rest)

/-- A key with blanks around it, and of no more parts than there can be. -/
def key? (cs : List Char) : Option (List String × List Char) := do
  let (parts, rest) ← parts? d (cs.length + 1) cs
  if parts.length ≤ d.depth then return (parts, rest) else none

end SwarmEvolution.Document.Toml
