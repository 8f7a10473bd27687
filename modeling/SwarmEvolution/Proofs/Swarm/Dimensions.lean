import SwarmEvolution.Proofs.Machine.Bodies
import SwarmEvolution.Proofs.Machine.Dimensions
import SwarmEvolution.Proofs.Swarm.PersonalBest

/-! The points of a swarm have the dimensions of its problem. Programs see only such points and
leave only such vectors on the stacks, so a member moves only to such a point. -/
namespace SwarmEvolution

open Sampling Draw

namespace Member

/-- All points of a member have the same length, those on its stacks too. -/
structure OfLength (m : Member) (d : Nat) : Prop where
  best : m.best.length = d
  current : m.current.length = d
  frame : m.frame.OfLength d

variable {d : Nat} {m : Member}

theorem start_ofLength {p : Point} (length : p.length = d) (value : Float32) :
    (Member.start p value).OfLength d :=
  ⟨length, length, List.forall_mem_singleton.mpr length⟩

/-- A member moves to a vector on the stacks or stays, and only its best point is added to them. -/
theorem settle_ofLength (problem : Problem) {frame : Frame} (vectors : frame.OfLength d)
    (before : m.OfLength d) : (m.settle problem frame).OfLength d := by
  generalize point : frame.vectors.top?.getD m.current = p
  have length : p.length = d := by
    cases top : frame.vectors.top? with
    | none =>
      obtain rfl : m.current = p := by simpa [top] using point
      exact before.current
    | some q =>
      obtain rfl : q = p := by simpa [top] using point
      exact vectors q (List.mem_of_head? top)
  have pushed : ∀ q ∈ (frame.vectors.push m.best).items, q.length = d :=
    List.forall_mem_cons.mpr ⟨before.best, vectors⟩
  by_cases inside : problem.within p
  case neg =>
    rw [settle_outside point (by simpa using inside)]
    exact ⟨before.best, length, pushed⟩
  by_cases better : problem.error p ≤ m.bestValue
  · rw [settle_accepted point inside better]
    exact ⟨length, length, vectors⟩
  · rw [settle_rejected point inside better]
    exact ⟨before.best, length, pushed⟩

end Member

namespace Swarm

/-- The machine works under the settings of the course, and all points have its dimensions. -/
structure OfLength (c : Course) (s : State) : Prop where
  settings : s.machine.settings = c.settings
  members : ∀ (k : Nat) (m : Member), s.members[k]? = some m →
    m.OfLength c.settings.vectorDimensions

variable {c : Course} {s : State}

theorem OfLength.view (fits : OfLength c s) :
    (SwarmView.ofMembers s.members).OfLength c.settings.vectorDimensions := by
  intro index best p found
  obtain ⟨m, own, rfl⟩ := Option.map_eq_some_iff.mp found
  have points := fits.members index m own
  cases best with
  | false => exact points.current
  | true => exact points.best

/-- The bounds that are published are no vectors. -/
theorem inputOfLength_openTurn (number best index d : Nat) (m : Machine) :
    (openTurn c number best index m).InputOfLength d := by
  intro p member
  simp [openTurn, publishBounds, Machine.pushInteger, Machine.push, Machine.setStack,
    Stack.pushAll, Stack.push, Stack.empty] at member

theorem runProgram_ofLength (fits : OfLength c s) (number best : Nat) {index : Nat}
    {member : Member} (own : s.members[index]? = some member) (program : Program) :
    (runProgram c number best s index member program).frame.OfLength
      c.settings.vectorDimensions := by
  let start := openTurn c number best index (s.machine.swapFrame member.frame).1
  have same : start.dimensions = c.settings.vectorDimensions :=
    congrArg Settings.Machine.vectorDimensions fits.settings
  have after := Machine.execute_ofLength (SwarmView.ofMembers s.members) program
    c.settings.executionLimit start
  rw [same] at after
  exact after fits.view (fits.members index member own).frame
    (inputOfLength_openTurn number best index _ _)

theorem turn_ofLength (number best index : Nat) (s : State) (fits : OfLength c s) :
    (turn c number best s index).Always (OfLength c) := by
  refine turn_always number best index fits fun member program own => ⟨?_, fun k m found => ?_⟩
  · have steady := Machine.surroundings_execute (SwarmView.ofMembers s.members) program
      c.settings.executionLimit (openTurn c number best index (s.machine.swapFrame member.frame).1)
    exact (congrArg Machine.Surroundings.settings steady).trans fits.settings
  · obtain rfl | other := eq_or_ne index k
    · have inside := (Array.getElem?_eq_some_iff.mp own).1
      rw [afterTurn, Array.getElem?_setIfInBounds_self_of_lt inside] at found
      obtain rfl := Option.some.inj found
      exact Member.settle_ofLength c.problem (runProgram_ofLength fits number best own program)
        (fits.members index member own)
    · refine fits.members k m ?_
      simpa [afterTurn, Array.getElem?_setIfInBounds_ne other] using found

theorem startPoint_length {problem : Problem} {start? : Nat → Option Point} {member : Nat}
    (given : ∀ p, start? member = some p → p.length = problem.dimensions) :
    (startPoint problem start? member).Always fun p => p.length = problem.dimensions := by
  unfold startPoint
  split
  case _ p found => exact always_pure (given p found)
  case _ =>
    exact (each_length _ _).mono fun p length => by
      simpa [Box.bounds] using length

theorem opening_ofLength {start? : Nat → Option Point} {size : Nat}
    (dimensions : c.problem.dimensions = c.settings.vectorDimensions)
    (given : ∀ k < size, ∀ p, start? k = some p → p.length = c.problem.dimensions)
    (moves : Nat) (record : Bool) (random : Stream) :
    OfLength c (opening c start? size moves record random).1 := by
  obtain ⟨same, started⟩ := opening_each (P := fun _ p => p.length = c.problem.dimensions)
    (fun k below => startPoint_length (given k below)) moves record random
  refine ⟨rfl, fun k m found => ?_⟩
  have below : k < size := by
    rw [← same]
    exact (Array.getElem?_eq_some_iff.mp found).1
  obtain ⟨p, first, length⟩ := started k below
  obtain rfl := Option.some.inj (first.symm.trans found)
  exact Member.start_ofLength (length.trans dimensions) _

end Swarm

namespace Evaluator

/-- An evaluator takes only problems of the dimensions of its vectors. -/
theorem dimensions_of_ofParts {machine : Settings.Machine} {optimisation : Settings.Optimisation}
    {problems : List Problem} {starts : StartPoints} {keepTrajectories : Bool} {e : Evaluator}
    (built : ofParts machine optimisation problems starts keepTrajectories = .ok e) :
    ∀ p ∈ e.problems, p.dimensions = e.machine.vectorDimensions := by
  unfold ofParts at built
  split at built
  · contradiction
  · split at built
    · contradiction
    case _ none =>
      obtain rfl := Except.ok.inj built
      intro p member
      simpa using List.find?_eq_none.mp none p member

/-- Programs keep the length of vectors, and therefore the points of a swarm keep the dimensions of
its problem in every run that starts with them. -/
theorem points_ofLength :
    (∀ (view : SwarmView) (p : Program) (limit : Nat) (m : Machine),
      view.OfLength m.dimensions → m.frame.OfLength m.dimensions →
        m.InputOfLength m.dimensions →
          (m.execute view p limit).1.frame.OfLength m.dimensions) ∧
    ∀ (machine : Settings.Machine) (optimisation : Settings.Optimisation)
      (problems : List Problem) (starts : StartPoints) (keepTrajectories : Bool) (e : Evaluator),
      ofParts machine optimisation problems starts keepTrajectories = .ok e →
        ∀ problem ∈ e.problems, ∀ (i : Individual) (index runNumber : Nat) (record : Bool)
          (random : Stream),
          (∀ k < e.swarmSize i, ∀ p, e.starts.get? index runNumber k = some p →
            p.length = problem.dimensions) →
          ∀ t ∈ e.turns i problem index runNumber record random,
            ∀ (k : Nat) (member : Member),
              (t.after (e.course i problem)).members[k]? = some member →
                member.OfLength problem.dimensions := by
  refine ⟨Machine.execute_ofLength, ?_⟩
  intro machine optimisation problems starts keepTrajectories e built problem own i index runNumber
    record random given t taken k member found
  have dimensions := dimensions_of_ofParts built problem own
  have start := Swarm.opening_ofLength (c := e.course i problem) dimensions given
    (e.moves (e.swarmSize i)) record random
  have after := (Swarm.turns_invariant Swarm.turn_ofLength start t taken).2
  rw [dimensions]
  exact after.members k member found

/-- Runs the next piece of code for the components of two vectors. -/
def zipping : Program := ⟨[.instruction (.overComponents true)]⟩

theorem duo_starts_length : ∀ k < duo.swarmSize wandering, ∀ p,
    duo.starts.get? 0 0 k = some p → p.length = Problem.line.dimensions := by
  intro k below p found
  obtain rfl | rfl : k = 0 ∨ k = 1 := Nat.le_one_iff_eq_zero_or_eq_one.mp (Nat.le_of_lt_succ below)
  · obtain rfl := Option.some.inj found
    rfl
  · obtain rfl := Option.some.inj found
    rfl

theorem points_ofLength_duo :
    (Machine.flushing.execute .empty zipping 10).1.frame.OfLength 2 ∧
    ∃ t ∈ duo.turns wandering .line 0 0 false (.ofSeed 0), t.index = 1 ∧ t.move = 1 ∧
      ∀ (k : Nat) (member : Member),
        (t.after (duo.course wandering .line)).members[k]? = some member → member.OfLength 1 := by
  obtain ⟨machine, swarm⟩ := points_ofLength
  constructor
  · refine machine .empty zipping 10 Machine.flushing ?_ ?_ ?_
    · exact fun _ _ _ found => by contradiction
    · exact List.forall_mem_cons.mpr ⟨rfl, List.forall_mem_singleton.mpr rfl⟩
    · exact fun _ member => absurd member List.not_mem_nil
  · have built : ofParts duo.machine duo.optimisation duo.problems duo.starts
        duo.keepTrajectories = .ok duo := rfl
    obtain ⟨t, taken, index, move⟩ := duo.exists_turn wandering .line 0 0 false (k := 1) (s := 1)
      (by decide) (by decide) (.ofSeed 0)
    exact ⟨t, taken, index, move, swarm _ _ _ _ _ duo built .line (.head _) wandering 0 0 false
      (.ofSeed 0) duo_starts_length t taken⟩

end Evaluator
end SwarmEvolution
