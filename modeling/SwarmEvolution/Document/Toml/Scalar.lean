import SwarmEvolution.Document.Basic
import SwarmEvolution.Document.Toml.Text
import SwarmEvolution.Number.Single
import SwarmEvolution.Number.Width

/-!
The values of TOML that are single words: truth values, integers, numbers, and moments in time.
Single underscores can stand between digits, and no number but a moment begins with a needless zero.
-/
namespace SwarmEvolution.Document.Toml

open Number

/-- The digits of a run in which single underscores can stand between two digits. -/
def digits? (base : Nat) : List Char → Option (List Nat)
  | [] => none
  | [c] => (digit? base c).map ([·])
  | c :: '_' :: rest => do return (← digit? base c) :: (← digits? base rest)
  | c :: rest => do return (← digit? base c) :: (← digits? base rest)

/-- The digits of a whole number in base ten. -/
def whole? (cs : List Char) : Option (List Nat) := do
  let digits ← digits? 10 cs
  if digits.head? = some 0 && digits.length ≠ 1 then none else return digits

/-- An integer, which has to fit 64 bits with sign. A number in another base has no sign. -/
def integer? (word : List Char) : Option Int := do
  let n : Int ← match word with
    | '0' :: 'x' :: cs => (digits? 16 cs).map fun digits => (ofDigits 16 digits : Int)
    | '0' :: 'o' :: cs => (digits? 8 cs).map fun digits => (ofDigits 8 digits : Int)
    | '0' :: 'b' :: cs => (digits? 2 cs).map fun digits => (ofDigits 2 digits : Int)
    | word =>
      let (negative, cs) := Numeral.splitSign word
      (whole? cs).map fun digits =>
        if negative then -(ofDigits 10 digits : Int) else ofDigits 10 digits
  if fitsInt64 n then return n else none

/-- The digits after a point, none if there is no point, and the rest. -/
def places? : List Char → Option (List Nat × List Char)
  | '.' :: cs => do
    let inside (c : Char) : Bool := c.isDigit || c = '_'
    return (← digits? 10 (cs.takeWhile inside), cs.dropWhile inside)
  | cs => some ([], cs)

/-- The power of ten after `e`, zero if there is nothing. -/
def power? : List Char → Option Int
  | [] => some 0
  | c :: cs => do
    let (negative, cs) := Numeral.splitSign cs
    let digits ← digits? 10 cs
    if c.toLower ≠ 'e' then none
    else return if negative then -(ofDigits 10 digits : Int) else ofDigits 10 digits

/-- A number with a point or a power of ten, or a word for one that is not finite. One that is too
large is refused. -/
def real? (d : Dialect) (word : List Char) : Option Float :=
  let (negative, cs) := Numeral.splitSign word
  if cs = ['i', 'n', 'f'] then some (doubleOfNumeral (.infinite negative))
  else if cs = ['n', 'a', 'n'] then some (doubleOfNumeral (.undefined negative))
  else do
    let inside (c : Char) : Bool := c.isDigit || c = '_'
    let whole ← whole? (cs.takeWhile inside)
    let (places, rest) ← places? (cs.dropWhile inside)
    if places.isEmpty && rest.isEmpty then none
    let power ← power? rest
    let size : Decimal := ⟨ofDigits 10 (whole ++ places), power - places.length⟩
    let x := doubleOfNumeral (.finite negative size)
    if x.isInf && !(negative && d.sinks) then none else return x

/-- Two digits, as a number up to `high`. -/
def two? (high : Nat) (a b : Char) : Option Nat := do
  let n := ofDigits 10 [← digit? 10 a, ← digit? 10 b]
  if n ≤ high then return n else none

/-- The days of a month. -/
def monthLength (year month : Nat) : Nat :=
  if month = 2 then
    if year % 4 = 0 && (year % 100 ≠ 0 || year % 400 = 0) then 29 else 28
  else if [4, 6, 9, 11].contains month then 30
  else 31

/-- A date and the rest. -/
def date? : List Char → Option (List Char × List Char)
  | y₁ :: y₂ :: y₃ :: y₄ :: '-' :: m₁ :: m₂ :: '-' :: d₁ :: d₂ :: rest => do
    let year := ofDigits 10 (← [y₁, y₂, y₃, y₄].mapM (digit? 10))
    let month ← two? 12 m₁ m₂
    let day ← two? (monthLength year month) d₁ d₂
    if month = 0 || day = 0 then none
    else return ([y₁, y₂, y₃, y₄, '-', m₁, m₂, '-', d₁, d₂], rest)
  | _ => none

/-- The fraction of a second in up to nine digits without trailing zeros, and the rest. -/
def fraction? : List Char → Option (List Char × List Char)
  | '.' :: cs =>
    let digits := cs.takeWhile Char.isDigit
    let kept := ((digits.take 9).reverse.dropWhile (· = '0')).reverse
    if digits.isEmpty then none
    else some (if kept.isEmpty then [] else '.' :: kept, cs.dropWhile Char.isDigit)
  | cs => some ([], cs)

/-- The seconds of a time of day and the rest. -/
def seconds? (d : Dialect) : List Char → Option (List Char × List Char)
  | ':' :: s₁ :: s₂ :: rest => do
    let _ ← two? 60 s₁ s₂
    let (fraction, rest) ← fraction? rest
    return ([':', s₁, s₂] ++ fraction, rest)
  | ':' :: _ => none
  | rest => if d.relaxed then some ([], rest) else none

/-- A time of day and the rest. -/
def time? (d : Dialect) : List Char → Option (List Char × List Char)
  | h₁ :: h₂ :: ':' :: m₁ :: m₂ :: rest => do
    let _ ← two? 23 h₁ h₂
    let _ ← two? 59 m₁ m₂
    let (seconds, rest) ← seconds? d rest
    return ([h₁, h₂, ':', m₁, m₂] ++ seconds, rest)
  | _ => none

/-- The distance from universal time, or nothing. -/
def offset? : List Char → Option (List Char)
  | [] => some []
  | ['Z'] | ['z'] => some ['Z']
  | [sign, h₁, h₂, ':', m₁, m₂] => do
    let hours ← two? 23 h₁ h₂
    let minutes ← two? 59 m₁ m₂
    if sign = '+' || (sign = '-' && hours + minutes = 0) then return ['+', h₁, h₂, ':', m₁, m₂]
    else if sign = '-' then return ['-', h₁, h₂, ':', m₁, m₂]
    else none
  | _ => none

/-- A date, a time of day, or both with `T` or a blank between them and perhaps an offset; in the
text that is given, it is always `T`. -/
def moment? (d : Dialect) (word : List Char) : Option String :=
  match date? word with
  | some (date, []) => some (String.ofList date)
  | some (date, mark :: rest) => do
    let (time, rest) ← time? d rest
    let offset ← offset? rest
    if mark = 'T' || mark = 't' || mark = ' ' then
      return String.ofList (date ++ 'T' :: time ++ offset)
    else none
  | none => do
    let (time, rest) ← time? d word
    if rest.isEmpty then return String.ofList time else none

/-- The value of a word. -/
def scalar? (d : Dialect) (word : List Char) : Option Document :=
  if word = ['t', 'r', 'u', 'e'] then some (.boolean true)
  else if word = ['f', 'a', 'l', 's', 'e'] then some (.boolean false)
  else match integer? word with
    | some n => some (.integer n)
    | none => match real? d word with
      | some x => some (.real x)
      | none => (moment? d word).map .moment

/-- A character of a word. -/
def isWordPart (c : Char) : Bool := c.isAlphanum || ['_', '+', '-', '.', ':'].contains c

/-- The next word. A date takes a time of day after a blank along. -/
def word (cs : List Char) : List Char × List Char :=
  let front := cs.takeWhile isWordPart
  let rest := cs.dropWhile isWordPart
  match rest with
  | ' ' :: c :: _ =>
    if (date? front).any (·.2.isEmpty) && c.isDigit then
      (front ++ ' ' :: (rest.drop 1).takeWhile isWordPart, (rest.drop 1).dropWhile isWordPart)
    else (front, rest)
  | _ => (front, rest)

end SwarmEvolution.Document.Toml
