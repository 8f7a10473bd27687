import SwarmEvolution.Document.Basic
import SwarmEvolution.Number.Digit
import SwarmEvolution.Number.Truncated

/-!
Reading documents written in JSON. An integer literal stays an integer as long as it fits 64 bits
with or without sign; any other number is a double-precision one and has to be finite. Half of a
surrogate pair is refused. Of entries with one key the last one counts.
-/
namespace SwarmEvolution.Document.Json

open Number

def isBlank (c : Char) : Bool := c = ' ' || c = '\t' || c = '\n' || c = '\r'

def skip (cs : List Char) : List Char := cs.dropWhile isBlank

/-- Four hexadecimal digits. -/
def unit? : List Char → Option (Nat × List Char)
  | a :: b :: c :: d :: rest => do
    return (ofDigits 16 (← [a, b, c, d].mapM (digit? 16)), rest)
  | _ => none

/-- The character of one unit, or of the pair that it begins. -/
def escaped? (rest : List Char) : Option (Char × List Char) := do
  let (high, rest) ← unit? rest
  if 0xd800 ≤ high && high < 0xdc00 then
    match rest with
    | '\\' :: 'u' :: rest =>
      let (low, rest) ← unit? rest
      if 0xdc00 ≤ low && low < 0xe000 then
        return (Char.ofNat (0x10000 + (high - 0xd800) * 0x400 + (low - 0xdc00)), rest)
      else none
    | _ => none
  else if 0xdc00 ≤ high && high < 0xe000 then none
  else return (Char.ofNat high, rest)

/-- One character inside quotes. -/
def character? : List Char → Option (Char × List Char)
  | '\\' :: c :: rest =>
    match c with
    | '"' => some ('"', rest)
    | '\\' => some ('\\', rest)
    | '/' => some ('/', rest)
    | 'b' => some ('\x08', rest)
    | 'f' => some ('\x0c', rest)
    | 'n' => some ('\n', rest)
    | 'r' => some ('\r', rest)
    | 't' => some ('\t', rest)
    | 'u' => escaped? rest
    | _ => none
  | c :: rest => if c < ' ' || c = '"' || c = '\\' then none else some (c, rest)
  | [] => none

/-- Characters up to the closing quote; the number bounds how many there are. -/
def characters? : Nat → List Char → Option (List Char × List Char)
  | 0, _ => none
  | _ + 1, '"' :: rest => some ([], rest)
  | n + 1, cs => do
    let (c, rest) ← character? cs
    let (tail, rest) ← characters? n rest
    return (c :: tail, rest)

/-- A text after its opening quote; the number bounds how long it is. -/
def text? (n : Nat) (cs : List Char) : Option (String × List Char) := do
  let (characters, rest) ← characters? n cs
  return (String.ofList characters, rest)

/-- The digits at the front, and the rest. -/
def digits (cs : List Char) : List Nat × List Char :=
  ((cs.takeWhile Char.isDigit).filterMap (digit? 10), cs.dropWhile Char.isDigit)

/-- The digits after a point, of which there is at least one, or nothing if there is no point. -/
def places? : List Char → Option (Option (List Nat) × List Char)
  | '.' :: rest =>
    let (places, rest) := digits rest
    if places.isEmpty then none else some (some places, rest)
  | rest => some (none, rest)

/-- The power of ten after `e`, or nothing if there is none. -/
def power? : List Char → Option (Option Int × List Char)
  | c :: rest =>
    if c.toLower = 'e' then
      let (negative, rest) := Numeral.splitSign rest
      let (power, rest) := digits rest
      let n : Int := ofDigits 10 power
      if power.isEmpty then none else some (some (if negative then -n else n), rest)
    else some (none, c :: rest)
  | [] => some (none, [])

def number? (cs : List Char) : Option (Document × List Char) := do
  let (negative, cs) := match cs with
    | '-' :: rest => (true, rest)
    | rest => (false, rest)
  let (whole, rest) := digits cs
  if whole.isEmpty || (whole.head? = some 0 && whole.length ≠ 1) then none
  let (places, rest) ← places? rest
  let (power, rest) ← power? rest
  let size := ofDigits 10 whole
  let n : Int := if negative then -size else size
  if places.isNone && power.isNone && (fitsInt64 n || fitsUInt64 n)
      && !(negative && size = 0) then
    return (.integer n, rest)
  else
    let x ← truncated? whole (places.getD []) (power.getD 0)
    return (.real (if negative then -x else x), rest)

/-- An entry in front of others, one of which may hide it. -/
def addEntry (key : String) (value : Document) (entries : List (String × Document)) :
    List (String × Document) :=
  if (entries.lookup key).isSome then entries else (key, value) :: entries

/-- How deep lists and tables can be nested. -/
def deepest : Nat := 127

mutual

/-- A value in which lists and tables can be nested `room` deep. The number before it bounds the
recursion: twice the length of what is left and two more are enough, as a step that consumes nothing
leads to one that does. -/
def value? : Nat → (room : Nat) → List Char → Option (Document × List Char)
  | 0, _, _ => none
  | n + 1, room, cs =>
    match skip cs with
    | '"' :: rest => (text? n rest).map fun (s, rest) => (.text s, rest)
    | '[' :: rest =>
      match room, skip rest with
      | 0, _ => none
      | _, ']' :: rest => some (.list [], rest)
      | room + 1, rest => (items? n room rest).map fun (items, rest) => (.list items, rest)
    | '\x7b' :: rest =>
      match room, skip rest with
      | 0, _ => none
      | _, '\x7d' :: rest => some (.table [], rest)
      | room + 1, rest =>
        (entries? n room rest).map fun (entries, rest) => (.table entries, rest)
    | 't' :: 'r' :: 'u' :: 'e' :: rest => some (.boolean true, rest)
    | 'f' :: 'a' :: 'l' :: 's' :: 'e' :: rest => some (.boolean false, rest)
    | 'n' :: 'u' :: 'l' :: 'l' :: rest => some (.null, rest)
    | rest => number? rest

/-- The values of a list up to its end. -/
def items? : Nat → (room : Nat) → List Char → Option (List Document × List Char)
  | 0, _, _ => none
  | n + 1, room, cs => do
    let (item, rest) ← value? n room cs
    match skip rest with
    | ',' :: rest =>
      let (items, rest) ← items? n room rest
      return (item :: items, rest)
    | ']' :: rest => return ([item], rest)
    | _ => none

/-- The entries of a table up to its end. -/
def entries? : Nat → (room : Nat) → List Char →
    Option (List (String × Document) × List Char)
  | 0, _, _ => none
  | n + 1, room, cs =>
    match skip cs with
    | '"' :: rest => do
      let (key, rest) ← text? n rest
      match skip rest with
      | ':' :: rest =>
        let (value, rest) ← value? n room rest
        match skip rest with
        | ',' :: rest =>
          let (entries, rest) ← entries? n room rest
          return (addEntry key value entries, rest)
        | '\x7d' :: rest => return ([(key, value)], rest)
        | _ => none
      | _ => none
    | _ => none

end

/-- The document that a text holds, with nothing but blanks around it. -/
def read? (text : String) : Option Document := do
  let cs := text.toList
  let (d, rest) ← value? (2 * cs.length + 2) deepest cs
  if (skip rest).isEmpty then return d else none

end SwarmEvolution.Document.Json
