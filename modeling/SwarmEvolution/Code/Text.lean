import SwarmEvolution.Code.Basic

/-! The text of code: lists in parentheses, items apart by one space. -/
namespace SwarmEvolution

def Atom.text : Atom → String
  | .instruction i => i.name
  | .integer n => toString n.toInt
  | .float x => Number.render .literal x
  | .boolean b => if b then "true" else "false"

namespace Code

mutual

def text : Code → String
  | .atom a => a.text
  | .list items => "(" ++ " ".intercalate (texts items) ++ ")"

def texts : List Code → List String
  | [] => []
  | c :: rest => c.text :: texts rest

end

end Code

def Program.text (p : Program) : String := p.toCode.text

end SwarmEvolution
