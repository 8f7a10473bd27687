import SwarmEvolution.Proofs.Swarm.History

/-! What a turn does to the member whose turn it is, whatever its program has left behind, and what
is therefore true of the best point of every member after every turn of a run. -/
namespace SwarmEvolution

namespace Member

/-- The best error is the error of the best point, which is the start or lies within the bounds. -/
def Sound (problem : Problem) (start : Point) (m : Member) : Prop :=
  m.bestValue = problem.error m.best ∧ (m.best = start ∨ problem.within m.best)

/-- How a member comes out of a turn whose program has left `left` on the vectors. -/
structure Judged (problem : Problem) (left : Stack Point) (old new : Member) : Prop where
  best : new.bestValue = old.bestValue ∨ new.bestValue ≤ old.bestValue
  outside : problem.within new.current = false →
    new.best = old.best ∧ new.bestValue = old.bestValue ∧ new.currentValue = Number.largest ∧
      new.frame.floats.top? = some Number.largest ∧ new.frame.booleans.top? = some false ∧
      new.frame.vectors.top? = some new.best
  inside : problem.within new.current →
    new.currentValue = problem.error new.current ∧
      new.frame.floats.top? = some (problem.error new.current) ∧
      new.frame.booleans.top? = some (decide (problem.error new.current ≤ old.bestValue)) ∧
      if left.isEmpty ∧ problem.error new.current ≤ old.bestValue then new.frame.vectors.isEmpty
      else new.frame.vectors.top? = some new.best

variable {problem : Problem} {frame : Frame} {m : Member} {p : Point}

theorem start_sound (p : Point) : (Member.start p (problem.error p)).Sound problem p :=
  ⟨rfl, .inl rfl⟩

theorem settle_sound {start : Point} (sound : m.Sound problem start) :
    (m.settle problem frame).Sound problem start := by
  unfold settle
  dsimp only
  split
  case isTrue inside =>
    split
    · exact ⟨rfl, .inr inside⟩
    · exact sound
  case isFalse => exact sound

/-- A point outside the bounds costs the largest error and leaves the best point on the stacks. -/
theorem settle_outside (point : frame.vectors.top?.getD m.current = p)
    (outside : problem.within p = false) :
    m.settle problem frame =
      { m with
        current := p
        currentValue := Number.largest
        frame := { frame with
          floats := frame.floats.push Number.largest
          booleans := frame.booleans.push false
          vectors := frame.vectors.push m.best } } := by
  simp [settle, point, outside, report, Number.outOfBoundsError]

/-- A point that is no worse than the best one becomes the best; the vectors stay as they are. -/
theorem settle_accepted (point : frame.vectors.top?.getD m.current = p)
    (inside : problem.within p) (better : problem.error p ≤ m.bestValue) :
    m.settle problem frame =
      { best := p
        bestValue := problem.error p
        current := p
        currentValue := problem.error p
        frame := { frame with
          floats := frame.floats.push (problem.error p)
          booleans := frame.booleans.push true } } := by
  simp [settle, point, inside, better, report]

theorem settle_rejected (point : frame.vectors.top?.getD m.current = p)
    (inside : problem.within p) (worse : ¬ problem.error p ≤ m.bestValue) :
    m.settle problem frame =
      { m with
        current := p
        currentValue := problem.error p
        frame := { frame with
          floats := frame.floats.push (problem.error p)
          booleans := frame.booleans.push false
          vectors := frame.vectors.push m.best } } := by
  simp [settle, point, inside, worse, report]

/-- The four outcomes of a turn: outside the bounds, no better, better with the new point on the
vectors, and better with the vectors left empty. -/
theorem settle_judged (problem : Problem) (frame : Frame) (m : Member) :
    m.Judged problem frame.vectors (m.settle problem frame) := by
  generalize point : frame.vectors.top?.getD m.current = p
  by_cases inside : problem.within p
  case neg =>
    rw [settle_outside point (by simpa using inside)]
    exact ⟨.inl rfl, fun _ => ⟨rfl, rfl, rfl, rfl, rfl, rfl⟩, fun within => absurd within inside⟩
  by_cases better : problem.error p ≤ m.bestValue
  case neg =>
    rw [settle_rejected point inside better]
    refine ⟨.inl rfl, fun outside => by simp [inside] at outside, fun _ => ⟨rfl, rfl, ?_, ?_⟩⟩
    · simp [Stack.push, Stack.top?, better]
    · simp [Stack.push, Stack.top?, better]
  rw [settle_accepted point inside better]
  refine ⟨.inr better, fun outside => by simp [inside] at outside, fun _ => ⟨rfl, rfl, ?_, ?_⟩⟩
  · simp [Stack.push, Stack.top?, better]
  · cases left : frame.vectors.items with
    | nil =>
      -- Nothing was left to move to, so the member has stayed where it was and still succeeds.
      simp [Stack.isEmpty, left, better]
    | cons q rest =>
      have reached : q = p := by simpa [Stack.top?, left] using point
      simp [Stack.isEmpty, Stack.top?, left, reached]

end Member

namespace Swarm

open Sampling Draw

variable {c : Course}

/-- The program of a turn decides only through the stacks that it leaves behind. -/
theorem after_members {t : Turn} {member : Member}
    (own : t.before.members[t.index]? = some member) :
    (t.after c).members =
      t.before.members.setIfInBounds t.index (member.settle c.problem (t.ran c member).frame) := by
  rw [Turn.after_eq own, Turn.ran_eq]
  rfl

/-- Every member is sound with respect to the point where it started. -/
def AllSound (c : Course) (opened s : State) : Prop :=
  ∀ (k : Nat) (m : Member), s.members[k]? = some m →
    ∃ p, opened.members[k]? = some (Member.start p (c.problem.error p)) ∧ m.Sound c.problem p

theorem opening_allSound (start? : Nat → Option Point) (size moves : Nat) (record : Bool)
    (random : Stream) : AllSound c (opening c start? size moves record random).1
      (opening c start? size moves record random).1 := by
  intro k m found
  obtain ⟨same, started⟩ := opening_always (c := c) start? size moves record random
  have below : k < size := by
    rw [← same]
    exact (Array.getElem?_eq_some_iff.mp found).1
  obtain ⟨p, first, -⟩ := started k below
  obtain rfl := Option.some.inj (first.symm.trans found)
  exact ⟨p, first, Member.start_sound p⟩

theorem turn_allSound {opened : State} (number best index : Nat) (s : State)
    (sound : AllSound c opened s) : (turn c number best s index).Always (AllSound c opened) := by
  refine turn_always number best index sound fun member program own k m found => ?_
  obtain rfl | other := eq_or_ne index k
  · obtain ⟨p, first, before⟩ := sound index member own
    have inside := (Array.getElem?_eq_some_iff.mp own).1
    rw [afterTurn, Array.getElem?_setIfInBounds_self_of_lt inside] at found
    obtain rfl := Option.some.inj found
    exact ⟨p, first, Member.settle_sound before⟩
  · exact sound k m (by simpa [afterTurn, Array.getElem?_setIfInBounds_ne other] using found)

/-- The member whose turn it was comes out of it judged. -/
theorem turn_judged {t : Turn} (inside : t.index < t.before.members.size) :
    ∃ old new, t.before.members[t.index]? = some old ∧ (t.after c).members[t.index]? = some new ∧
      old.Judged c.problem (t.ran c old).frame.vectors new := by
  have own := Array.getElem?_eq_getElem inside
  refine ⟨_, _, own, ?_, Member.settle_judged ..⟩
  rw [after_members own, Array.getElem?_setIfInBounds_self_of_lt inside]

end Swarm

/-- After every turn of a run the best error of each member is the error of its best point, which is
its start or lies within the bounds, and the member whose turn it was finds the verdict on its
stacks. -/
theorem Evaluator.turns_judged (e : Evaluator) (i : Individual) (problem : Problem)
    (index runNumber : Nat) (record : Bool) (random : Sampling.Stream) :
    ∀ t ∈ e.turns i problem index runNumber record random,
      Swarm.AllSound (e.course i problem) (e.opening i problem index runNumber record random).1
        (t.after (e.course i problem)) ∧
      ∃ old new, t.before.members[t.index]? = some old ∧
        (t.after (e.course i problem)).members[t.index]? = some new ∧
        old.Judged problem (t.ran (e.course i problem) old).frame.vectors new := by
  intro t member
  obtain ⟨same, inside⟩ := Swarm.turns_index t member
  exact ⟨(Swarm.turns_invariant Swarm.turn_allSound (Swarm.opening_allSound _ _ _ _ _) t member).2,
    Swarm.turn_judged (same ▸ inside)⟩

/-- In its first turn the second member moves to the origin, which is better than its start. -/
theorem Evaluator.turns_judged_duo :
    ∃ t ∈ duo.turns homing .line 0 0 false (.ofSeed 0),
      (t.before.members[1]?.map (·.bestValue) = some (0.25 : Float32) ∧
        (t.after (duo.course homing .line)).members[1]?.map (·.bestValue) = some 0) ∧
      Swarm.AllSound (duo.course homing .line)
        (duo.opening homing .line 0 0 false (.ofSeed 0)).1 (t.after (duo.course homing .line)) ∧
      ∃ old new, t.before.members[t.index]? = some old ∧
        (t.after (duo.course homing .line)).members[t.index]? = some new ∧
        old.Judged .line (t.ran (duo.course homing .line) old).frame.vectors new := by
  have better : ∃ t ∈ duo.turns homing .line 0 0 false (.ofSeed 0),
      t.before.members[1]?.map (·.bestValue) = some (0.25 : Float32) ∧
        (t.after (duo.course homing .line)).members[1]?.map (·.bestValue) = some 0 := by
    decide +kernel
  obtain ⟨t, taken, better⟩ := better
  exact ⟨t, taken, better, turns_judged duo homing .line 0 0 false (.ofSeed 0) t taken⟩

end SwarmEvolution
