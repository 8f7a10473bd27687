import SwarmEvolution.Document.Toml.Draft
import SwarmEvolution.Document.Toml.Scalar

/-!
Reading documents written in TOML: values with lists and inline tables, then the lines, which are
headers of tables and keys with values.
-/
namespace SwarmEvolution.Document.Toml

/-- A key's parts before the last one, and the last one. -/
def splitLast? (parts : List String) : Option (List String × String) :=
  parts.getLast?.map (parts.dropLast, ·)

variable (d : Dialect)

/-- The characters without what can stand between the parts of an inline table. -/
def skipInline (cs : List Char) : List Char := if d.relaxed then skipLines false cs else skip cs

/-- The inline table of keys and values. -/
def inline? (pairs : List (List String × Document)) : Option Document := do
  let entries ← pairs.foldlM (fun entries (parts, value) => do
    let (path, last) ← splitLast? parts
    Draft.assign d path last value .stated entries) []
  return .table (Draft.finish entries)

mutual

/-- A value in which lists and inline tables can be nested `room` deep; the number before it bounds
the recursion. -/
def value? : Nat → (room : Nat) → List Char → Option (Document × List Char)
  | 0, _, _ => none
  | n + 1, room, cs =>
    match cs with
    | '"' :: _ | '\'' :: _ => (text? d cs).map fun (s, rest) => (.text s, rest)
    | '[' :: rest =>
      match room with
      | 0 => none
      | room + 1 =>
        (items? n room (skipLines false rest)).map fun (items, rest) => (.list items, rest)
    | '\x7b' :: rest =>
      match room, skipInline d rest with
      | 0, _ => none
      | _, '\x7d' :: rest => some (.table [], rest)
      | room + 1, rest => do
        let (pairs, rest) ← pairs? n room rest
        return (← inline? d pairs, rest)
    | cs =>
      let (word, rest) := word cs
      (scalar? d word).map (·, rest)

/-- The items of a list up to its end; a comma can follow the last one. -/
def items? : Nat → (room : Nat) → List Char → Option (List Document × List Char)
  | 0, _, _ => none
  | _ + 1, _, ']' :: rest => some ([], rest)
  | n + 1, room, cs => do
    let (item, rest) ← value? n room cs
    match skipLines false rest with
    | ',' :: rest =>
      let (items, rest) ← items? n room (skipLines false rest)
      return (item :: items, rest)
    | ']' :: rest => return ([item], rest)
    | _ => none

/-- A key and its value; `gap` takes away what can stand around the sign between them. -/
def pair? (gap : List Char → List Char) :
    Nat → (room : Nat) → List Char → Option ((List String × Document) × List Char)
  | 0, _, _ => none
  | n + 1, room, cs => do
    let (parts, rest) ← key? d cs
    match gap rest with
    | '=' :: rest =>
      let (value, rest) ← value? n room (gap rest)
      return ((parts, value), rest)
    | _ => none

/-- The pairs of an inline table up to its end. -/
def pairs? : Nat → (room : Nat) → List Char →
    Option (List (List String × Document) × List Char)
  | 0, _, _ => none
  | n + 1, room, cs => do
    let (pair, rest) ← pair? (skipInline d) n room cs
    match skipInline d rest with
    | '\x7d' :: rest => return ([pair], rest)
    | ',' :: rest =>
      match d.relaxed, skipInline d rest with
      | true, '\x7d' :: rest => return ([pair], rest)
      | _, rest =>
        let (pairs, rest) ← pairs? n room rest
        return (pair :: pairs, rest)
    | _ => none

end

/-- What has been read, and the table that keys go into. -/
structure Progress where
  entries : Draft.Entries := []
  current : List String := []

namespace Progress

/-- A header with `closing` at its end, which makes its table the current one. -/
def header? (p : Progress) (closing : List Char)
    (open? : String → Draft.Entries → Option Draft.Entries) (cs : List Char) :
    Option (Progress × List Char) := do
  let (parts, rest) ← key? d cs
  let (path, last) ← splitLast? parts
  let entries ← Draft.within path (fun _ => open? last) p.entries
  if closing.isPrefixOf rest then return (⟨entries, parts⟩, rest.drop closing.length) else none

/-- What a line holds, if it is not blank; the characters begin with no blank. -/
def line? (p : Progress) (cs : List Char) : Option (Progress × List Char) :=
  match cs with
  | [] | '#' :: _ | '\n' :: _ | '\r' :: _ => some (p, cs)
  | '[' :: '[' :: rest => p.header? d [']', ']'] Draft.extend rest
  | '[' :: rest => p.header? d [']'] Draft.state rest
  | cs => do
    let ((parts, value), rest) ← pair? d skip (cs.length + 2) d.depth cs
    let (path, last) ← splitLast? parts
    let entries ← Draft.within p.current (Draft.assign d path last value) p.entries
    return ({ p with entries }, rest)

/-- All lines; the number bounds the recursion. -/
def lines? : Nat → Progress → List Char → Option Progress
  | _, p, [] => some p
  | 0, _, _ => none
  | n + 1, p, cs => do
    let (p, rest) ← p.line? d (skip cs)
    lines? n p (← lineEnd? rest)

end Progress

/-- The document that a text holds. A byte order mark in front of it is passed over. -/
def read? (text : String) : Option Document := do
  let cs := match text.toList with
    | '\ufeff' :: cs => cs
    | cs => cs
  let p ← Progress.lines? d (cs.length + 1) {} cs
  return .table (Draft.finish p.entries)

end SwarmEvolution.Document.Toml
