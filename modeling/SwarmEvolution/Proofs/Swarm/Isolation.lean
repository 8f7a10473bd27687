import SwarmEvolution.Proofs.Machine.Surroundings
import SwarmEvolution.Proofs.Swarm.History

/-! The members of a swarm share one machine but not their stacks. Between turns the machine's own
stacks are empty, and what the other members keep on theirs makes no difference to a turn. -/
namespace SwarmEvolution

/-- No stacks of a member are in the machine, and no body of an instruction is being run. -/
def Machine.Idle (m : Machine) : Prop := m.frame = {} ∧ m.nesting = 0

namespace Swarm

open Sampling Draw

variable {c : Course}

/-- The swarm with the frames of all members but one replaced. -/
def State.withFrames (s : State) (index : Nat) (frames : Nat → Frame) : State :=
  { s with
    members := s.members.mapIdx fun k m => if k = index then m else { m with frame := frames k } }

def Turn.withFrames (t : Turn) (frames : Nat → Frame) : Turn :=
  { t with before := t.before.withFrames t.index frames }

/-- A program finds the bounds in the input and nothing else. -/
theorem opened_input (t : Turn) (member : Member) :
    (t.opened c member).input.toList = [.float c.bounds.lower, .float c.bounds.upper] := rfl

theorem nesting_runProgram (number best index : Nat) (s : State) (member : Member)
    (program : Program) :
    (runProgram c number best s index member program).nesting = s.machine.nesting :=
  congrArg Machine.Surroundings.nesting (Machine.surroundings_execute ..)

theorem opening_idle (start? : Nat → Option Point) (size moves : Nat) (record : Bool) :
    (opening c start? size moves record).Always (·.machine.Idle) :=
  always_bind fun _ => always_bind fun _ => always_pure ⟨rfl, rfl⟩

/-- The machine's own stacks wait in the frame of the member and come back unchanged. -/
theorem turn_idle (number best index : Nat) (s : State) (idle : s.machine.Idle) :
    (turn c number best s index).Always (·.machine.Idle) :=
  turn_always number best index idle fun _ _ _ => ⟨idle.1, (nesting_runProgram ..).trans idle.2⟩

theorem turn_others (number best index : Nat) (s : State) :
    (turn c number best s index).Always fun after =>
      ∀ k ≠ index, after.members[k]? = s.members[k]? :=
  turn_always number best index (fun _ _ => rfl) fun _ _ _ _ other =>
    Array.getElem?_setIfInBounds_ne other.symm

section Frames

variable (s : State) (index : Nat) (frames : Nat → Frame)

theorem getElem?_withFrames : (s.withFrames index frames).members[index]? = s.members[index]? := by
  simp [State.withFrames]

/-- Programs see points of other members and never their stacks. -/
theorem view_withFrames :
    SwarmView.ofMembers (s.withFrames index frames).members = SwarmView.ofMembers s.members := by
  simp only [SwarmView.ofMembers, State.withFrames, Array.size_mapIdx, SwarmView.mk.injEq, true_and]
  funext k best
  rw [Array.getElem?_mapIdx, Option.map_map]
  congr 1
  funext m
  dsimp only [Function.comp]
  by_cases own : k = index <;> simp [own]

theorem runProgram_withFrames (number best : Nat) (member : Member) (program : Program) :
    runProgram c number best (s.withFrames index frames) index member program =
      runProgram c number best s index member program := by
  unfold runProgram
  rw [view_withFrames]
  rfl

theorem setIfInBounds_withFrames (member : Member) :
    (s.withFrames index frames).members.setIfInBounds index member =
      (State.withFrames { s with members := s.members.setIfInBounds index member } index
        frames).members := by
  refine Array.ext (by simp [State.withFrames]) fun k _ _ => ?_
  obtain rfl | other := eq_or_ne index k <;> simp_all [State.withFrames]

theorem afterTurn_withFrames (number best : Nat) (member : Member) (program : Program) :
    afterTurn c number best (s.withFrames index frames) index member program =
      (afterTurn c number best s index member program).withFrames index frames := by
  simp only [afterTurn, runProgram_withFrames, setIfInBounds_withFrames]
  rfl

theorem turn_withFrames (number best : Nat) (random : Stream) :
    turn c number best (s.withFrames index frames) index random =
      ((turn c number best s index random).1.withFrames index frames,
        (turn c number best s index random).2) := by
  unfold turn
  rw [getElem?_withFrames]
  cases s.members[index]? with
  | none => rfl
  | some member => exact Prod.ext (afterTurn_withFrames ..) rfl

end Frames

end Swarm

/-- In every turn of a run the machine is idle before and after, the program finds the bounds in the
input and nothing else, the other members stay as they are, and so would everything the turn does if
they had other frames. -/
theorem Evaluator.turns_isolated (e : Evaluator) (i : Individual) (problem : Problem)
    (index runNumber : Nat) (record : Bool) (random : Sampling.Stream) :
    ∀ t ∈ e.turns i problem index runNumber record random,
      (t.before.machine.Idle ∧ (t.after (e.course i problem)).machine.Idle) ∧
      (∀ member, (t.opened (e.course i problem) member).input.toList =
        [.float (problem.bound 0).lower, .float (problem.bound 0).upper]) ∧
      (∀ k ≠ t.index, (t.after (e.course i problem)).members[k]? = t.before.members[k]?) ∧
      ∀ frames, (t.withFrames frames).outcome (e.course i problem) =
        ((t.after (e.course i problem)).withFrames t.index frames,
          (t.outcome (e.course i problem)).2) := by
  intro t member
  refine ⟨?_, Swarm.opened_input t, Swarm.turn_others _ _ _ _ t.random,
    fun frames => Swarm.turn_withFrames ..⟩
  exact Swarm.turns_invariant Swarm.turn_idle (Swarm.opening_idle _ _ _ _ _) t member

/-- In the second move the second member goes to the origin, while the first one has stacks of its
own from both of its turns. -/
theorem Evaluator.turns_isolated_duo :
    ∃ t ∈ duo.turns homing .line 0 0 false (.ofSeed 0),
      (t.index = 1 ∧ t.before.members[0]?.map (·.frame.booleans.items) = some [true, true] ∧
        t.before.members[1]?.map (·.frame.booleans.items) = some [true] ∧
        (t.after (duo.course homing .line)).members[1]?.map (·.frame.booleans.items) =
          some [true, true]) ∧
      (t.before.machine.Idle ∧ (t.after (duo.course homing .line)).machine.Idle) ∧
      (∀ member, (t.opened (duo.course homing .line) member).input.toList =
        [.float (-1), .float 1]) ∧
      (∀ k ≠ t.index, (t.after (duo.course homing .line)).members[k]? = t.before.members[k]?) ∧
      ∀ frames, (t.withFrames frames).outcome (duo.course homing .line) =
        ((t.after (duo.course homing .line)).withFrames t.index frames,
          (t.outcome (duo.course homing .line)).2) := by
  have told : ∃ t ∈ duo.turns homing .line 0 0 false (.ofSeed 0),
      t.index = 1 ∧ t.before.members[0]?.map (·.frame.booleans.items) = some [true, true] ∧
        t.before.members[1]?.map (·.frame.booleans.items) = some [true] ∧
        (t.after (duo.course homing .line)).members[1]?.map (·.frame.booleans.items) =
          some [true, true] := by
    decide +kernel
  obtain ⟨t, taken, told⟩ := told
  exact ⟨t, taken, told, turns_isolated duo homing .line 0 0 false (.ofSeed 0) t taken⟩

end SwarmEvolution
