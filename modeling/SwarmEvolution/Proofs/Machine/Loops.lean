import SwarmEvolution.Proofs.Machine.Operands

/-! Loops. Four instructions put the next piece of code into a loop, and they do so whatever its
size; what any of them puts together ends up on the exec stack. -/
namespace SwarmEvolution

/-- The instructions that put the next piece of code into a loop. -/
def Instruction.loops : Instruction → Bool
  | .exec .y | .exec .range | .exec .times | .exec .count => true
  | _ => false

theorem Instruction.eq_of_loops {i : Instruction} (looping : i.loops) :
    i = .exec .y ∨ i = .exec .range ∨ i = .exec .times ∨ i = .exec .count := by
  unfold loops at looping
  split at looping <;> simp_all

namespace Machine

open Act

/-- An instruction is about to put a loop together from the operands that are there. -/
inductive Builds (m : Machine) : Instruction → Code → Prop
  | y {body rest} (exec : (m.stack .exec).items = body :: rest) :
    Builds m (.exec .y) (.list [.instruction (.exec .y), body])
  | range {last index ns body rest} (integers : (m.stack .integer).items = last :: index :: ns)
    (exec : (m.stack .exec).items = body :: rest) (further : index ≠ last) :
    Builds m (.exec .range)
      (rangeLoop (if index < last then index + 1 else index - 1) last body)
  | count {n ns body rest} (integers : (m.stack .integer).items = n :: ns)
    (exec : (m.stack .exec).items = body :: rest) (positive : 0 < n) :
    Builds m (.exec .count) (rangeLoop 0 (n - 1) body)
  | times {n ns body rest} (integers : (m.stack .integer).items = n :: ns)
    (exec : (m.stack .exec).items = body :: rest) (positive : 0 < n) :
    Builds m (.exec .times)
      (rangeLoop 0 (n - 1) (.list [.instruction (.stack .integer .pop), body]))

theorem points_rangeLoop (first last : Int32) (body : Code) :
    (rangeLoop first last body).points = body.points + 4 := by
  simp only [rangeLoop, Code.instruction, Code.points, Code.pointsOfAll]
  omega

variable {m : Machine} {i : Instruction} {last index n : Int32} {ns : List Int32}
  {body loop : Code} {rest : List Code}

theorem on_y (exec : (m.stack .exec).items = body :: rest) :
    (execOp .y).on m = (some (),
      ((m.below .exec).push .exec (.list [.instruction (.exec .y), body])).push .exec body) := by
  simp [execOp, on_bind, on_pop_of_items exec]

/-- The machine without the operands of a loop over a range. -/
def belowRange (m : Machine) : Machine := ((m.below .integer).below .integer).below .exec

theorem on_range (integers : (m.stack .integer).items = last :: index :: ns)
    (exec : (m.stack .exec).items = body :: rest) (further : index ≠ last) :
    (execOp .range).on m = (some (), ((m.belowRange.push .exec
      (rangeLoop (if index < last then index + 1 else index - 1) last body)).push
        .integer index).push .exec body) := by
  have second := items_below integers
  have third : (((m.below .integer).below .integer).stack .exec).items = body :: rest := exec
  simp [execOp, on_bind, on_pop_of_items integers, on_pop_of_items second, on_pop_of_items third,
    further, belowRange]

theorem on_range_last (integers : (m.stack .integer).items = last :: last :: ns)
    (exec : (m.stack .exec).items = body :: rest) :
    (execOp .range).on m =
      (some (), (m.belowRange.push .integer last).push .exec body) := by
  have second := items_below integers
  have third : (((m.below .integer).below .integer).stack .exec).items = body :: rest := exec
  simp [execOp, on_bind, on_pop_of_items integers, on_pop_of_items second, on_pop_of_items third,
    belowRange]

theorem on_countedLoop {wrap : Code → Code} (integers : (m.stack .integer).items = n :: ns)
    (exec : (m.stack .exec).items = body :: rest) (positive : 0 < n) :
    (countedLoop wrap).on m = (some (),
      ((m.below .integer).below .exec).push .exec (rangeLoop 0 (n - 1) (wrap body))) := by
  have second : ((m.below .integer).stack .exec).items = body :: rest := exec
  simp [countedLoop, on_bind, Stack.top?, integers, positive, on_pop_of_items integers,
    on_pop_of_items second]

theorem Builds.satisfies (builds : m.Builds i loop) : m.frame.satisfies i.operands := by
  refine Frame.satisfies_iff.mpr fun k => ?_
  change _ ≤ (m.stack k).items.length
  cases builds with
  | y exec => cases k <;> simp [Instruction.operands, Operands.on, exec]
  | range integers exec | count integers exec | times integers exec =>
    cases k <;> simp [Instruction.operands, Operands.on, integers, exec]

theorem Builds.mem_exec (builds : m.Builds i loop) (view : SwarmView)
    (runBody : Machine → Code → Machine) :
    loop ∈ ((performWith view runBody m i).stack .exec).items := by
  rw [performWith_of_satisfies builds.satisfies]
  cases builds with
  | y exec =>
    rw [act, on_y exec]
    exact .tail _ (.head _)
  | range integers exec further =>
    rw [act, on_range integers exec further]
    exact .tail _ (.head _)
  | count integers exec positive | times integers exec positive =>
    rw [act, execOp, on_countedLoop integers exec positive]
    exact .head _

end Machine
end SwarmEvolution
