import SwarmEvolution.Proofs.Swarm.Dimensions
import SwarmEvolution.Proofs.Swarm.Trajectories

/-! Recording observes a run and does not change it. An evaluation that keeps trajectories draws and
finds the same as one that does not, and its trajectory shows where every member was after each of
its turns in the first run on the first problem. -/
namespace SwarmEvolution

open Sampling Draw

namespace Swarm

variable {c : Course}

/-- A swarm that nobody watches. -/
def State.unrecorded (s : State) : State := { s with trajectory := none }

section Unrecorded

theorem turn_unrecorded (number best : Nat) (s : State) (index : Nat) :
    turn c number best s.unrecorded index = State.unrecorded <$> turn c number best s index := by
  have same : s.unrecorded.members = s.members := rfl
  unfold turn
  rw [same]
  cases s.members[index]? with
  | none => rfl
  | some member => rfl

theorem move_unrecorded (s : State) (number : Nat) :
    move c s.unrecorded number = State.unrecorded <$> move c s number :=
  foldlM_image (turn_unrecorded number (bestMember s.members)) (List.range s.members.size) s

theorem opening_unrecorded (start? : Nat → Option Point) (size moves : Nat) (record : Bool) :
    opening c start? size moves false =
      State.unrecorded <$> opening c start? size moves record := rfl

/-- A run comes to the same whether it is recorded or not, and leaves the same of the stream. -/
theorem run_unrecorded (start? : Nat → Option Point) (size moves : Nat) (record : Bool) :
    run c start? size moves false = State.unrecorded <$> run c start? size moves record :=
  calc
    run c start? size moves false =
        opening c start? size moves false >>= (List.range moves).foldlM (move c) := rfl
    _ = opening c start? size moves record >>=
        fun s => (List.range moves).foldlM (move c) s.unrecorded := by
      rw [opening_unrecorded start? size moves record, bind_map_left]
    _ = opening c start? size moves record >>=
        fun s => State.unrecorded <$> (List.range moves).foldlM (move c) s := by
      simp only [foldlM_image (fun s number => move_unrecorded s number)]
    _ = State.unrecorded <$> run c start? size moves record := (map_bind ..).symm

end Unrecorded

section Entries

/-- What a turn enters into a trajectory: where the member is after it. -/
def Turn.written? (c : Course) (t : Turn) : Option Trajectory.Entry :=
  (t.after c).members[t.index]?.map fun m => ⟨t.index, t.move, m.current⟩

theorem Turn.trajectory_after (t : Turn) :
    (t.after c).trajectory =
      t.before.trajectory.map (·.recordAll (t.written? c).toList) := by
  cases own : t.before.members[t.index]? with
  | none =>
    have same : t.after c = t.before := by
      unfold after outcome turn
      rw [own]
      rfl
    rw [written?, same, own]
    exact Option.map_id'.symm
  | some member =>
    have inside := (Array.getElem?_eq_some_iff.mp own).1
    rw [written?, after_members own, Array.getElem?_setIfInBounds_self_of_lt inside,
      Turn.after_eq own, Turn.ran_eq]
    rfl

/-- Turns that follow each other enter their points one after another. -/
theorem Chained.trajectory {ts : List Turn} {first last : State × Stream}
    (chained : Chained c ts first last) :
    last.1.trajectory =
      first.1.trajectory.map (·.recordAll (ts.filterMap (Turn.written? c))) := by
  induction ts generalizing first with
  | nil =>
    obtain rfl := chained
    exact Option.map_id'.symm
  | cons t ts ih =>
    obtain ⟨rfl, rest⟩ := chained
    have turned : (t.outcome c).1.trajectory = _ := t.trajectory_after
    have entered : (t :: ts).filterMap (Turn.written? c) =
        (t.written? c).toList ++ ts.filterMap (Turn.written? c) := by
      cases led : t.written? c <;> simp [led]
    rw [ih rest, turned, entered, Option.map_map]
    congr 1
    funext trajectory
    exact List.foldl_append.symm

section Places

variable {start? : Nat → Option Point} {size moves : Nat} {record : Bool} {random : Stream}

theorem turns_entry : ∀ t ∈ turns c start? size moves record random,
    ∃ m, (t.after c).members[t.index]? = some m ∧
      t.written? c = some ⟨t.index, t.move, m.current⟩ := by
  intro t taken
  obtain ⟨same, inside⟩ := turns_index t taken
  obtain ⟨-, m, -, own, -⟩ := turn_judged (c := c) (t := t) (same ▸ inside)
  exact ⟨m, own, by rw [Turn.written?, own]; rfl⟩

end Places

/-- A recorded run comes to a table of where every member was after each of its turns. -/
theorem run_records (start? : Nat → Option Point) (size moves : Nat) (random : Stream)
    (lengths : ∀ t ∈ turns c start? size moves true random, ∀ m,
      (t.after c).members[t.index]? = some m → m.current.length = c.problem.dimensions) :
    ∃ trajectory, (run c start? size moves true random).1.trajectory = some trajectory ∧
      trajectory.members = size ∧ trajectory.moves = moves ∧
      trajectory.dimensions = c.problem.dimensions ∧
      ∀ t ∈ turns c start? size moves true random, ∃ m,
        (t.after c).members[t.index]? = some m ∧
          trajectory.point? t.index t.move = some m.current := by
  let first := Trajectory.rest size moves c.problem.dimensions
  let entries := (turns c start? size moves true random).filterMap (Turn.written? c)
  have recorded : (run c start? size moves true random).1.trajectory =
      some (first.recordAll entries) := (turns_chained start? size moves true random).trajectory
  have fit : ∀ entry ∈ entries, first.Fits entry := by
    intro entry member
    obtain ⟨t, taken, entered⟩ := List.mem_filterMap.mp member
    obtain ⟨m, own, same⟩ := turns_entry t taken
    obtain rfl := Option.some.inj (same.symm.trans entered)
    exact ⟨(turns_index t taken).2, turns_move t taken, lengths t taken m own⟩
  have distinct : (entries.map Trajectory.Entry.place).Nodup := by
    have places : entries.map Trajectory.Entry.place =
        (turns c start? size moves true random).map Turn.place := by
      rw [List.map_filterMap, ← List.filterMap_eq_map]
      refine List.filterMap_congr fun t taken => ?_
      obtain ⟨m, -, same⟩ := turns_entry t taken
      rw [same]
      rfl
    rw [places]
    exact nodup_place_turns
  have found := Trajectory.point?_recordAll fit distinct
  obtain ⟨shape, steps, dimensions⟩ := Trajectory.recordAll_shape (t := first) entries
  refine ⟨_, recorded, shape, steps, dimensions, fun t taken => ?_⟩
  obtain ⟨m, own, same⟩ := turns_entry t taken
  exact ⟨m, own, found _ (List.mem_filterMap.mpr ⟨t, taken, same⟩)⟩

end Entries

end Swarm

namespace Evaluator

/-- The evaluator that keeps trajectories, or the one that does not. -/
def recording (e : Evaluator) (on : Bool) : Evaluator := { e with keepTrajectories := on }

variable (e : Evaluator) (i : Individual)

section Unrecorded

theorem run_recording (problem : Problem) (index runNumber : Nat) (record : Bool) :
    (e.recording false).run i problem index runNumber false =
      Swarm.State.unrecorded <$> (e.recording true).run i problem index runNumber record :=
  Swarm.run_unrecorded ..

theorem runsOn_recording (problem : Problem) (index : Nat) :
    (e.recording false).runsOn i problem index =
      List.map Swarm.State.unrecorded <$> (e.recording true).runsOn i problem index :=
  each_image (fun number => e.run_recording i problem index number _) _

theorem meanError_unrecorded (outcomes : List Swarm.State) (runs : Nat) :
    meanError (outcomes.map Swarm.State.unrecorded) runs = meanError outcomes runs := by
  rw [meanError, meanError, List.map_map]
  rfl

theorem summarise_unrecorded (outcomes : List (List Swarm.State)) :
    (e.recording false).summarise (outcomes.map (List.map Swarm.State.unrecorded)) =
      { (e.recording true).summarise outcomes with trajectory := none } := by
  have errors : (outcomes.map (List.map Swarm.State.unrecorded)).map
      (meanError · e.optimisation.runs) = outcomes.map (meanError · e.optimisation.runs) := by
    rw [List.map_map]
    exact List.map_congr_left fun states _ => meanError_unrecorded states _
  have unwatched : (outcomes.map (List.map Swarm.State.unrecorded)).flatten.findSome?
      (·.trajectory) = none := by
    rw [← List.map_flatten, List.findSome?_eq_none_iff]
    intro s member
    obtain ⟨watched, -, rfl⟩ := List.mem_map.mp member
    rfl
  simp only [summarise, recording, errors, unwatched]

/-- An evaluation that keeps no trajectory finds the same as one that does. -/
theorem evaluate_recording (seed : UInt64) : (e.recording false).evaluate i seed =
    { (e.recording true).evaluate i seed with trajectory := none } := by
  have all := each_image (fun p : Problem × Nat => e.runsOn_recording i p.1 p.2)
    e.problems.zipIdx
  have outcomes := congrArg (fun draw => (draw (Stream.ofSeed seed)).1) all
  exact (congrArg (e.recording false).summarise outcomes).trans (e.summarise_unrecorded _)

end Unrecorded

/-- The trajectory of an evaluation is the one of the first run on the first problem. -/
theorem evaluate_first {problem : Problem} {rest : List Problem} {runs : Nat}
    {trajectory : Trajectory} (problems : e.problems = problem :: rest)
    (many : e.optimisation.runs = runs + 1) {seed : UInt64}
    (recorded : (e.run i problem 0 0 true (.ofSeed seed)).1.trajectory = some trajectory) :
    ((e.recording true).evaluate i seed).trajectory = some trajectory := by
  obtain ⟨later, first⟩ : ∃ later, ((e.recording true).runsOn i problem 0 (.ofSeed seed)).1 =
      (e.run i problem 0 0 true (.ofSeed seed)).1 :: later := by
    have numbers : List.range (e.recording true).optimisation.runs =
        0 :: (List.range runs).map Nat.succ := by
      rw [← List.range_succ_eq_map, ← many]
      rfl
    rw [runsOn, numbers]
    exact ⟨_, rfl⟩
  obtain ⟨others, outcomes⟩ : ∃ others, (each (fun p : Problem × Nat =>
      (e.recording true).runsOn i p.1 p.2) e.problems.zipIdx (.ofSeed seed)).1 =
        ((e.recording true).runsOn i problem 0 (.ofSeed seed)).1 :: others := by
    rw [problems]
    exact ⟨_, rfl⟩
  have kept : ((e.recording true).evaluate i seed).trajectory =
      List.findSome? (·.trajectory) (List.flatten (((e.recording true).runsOn i problem 0
        (.ofSeed seed)).1 :: others)) :=
    congrArg (fun all => ((e.recording true).summarise all).trajectory) outcomes
  rw [kept, first, List.flatten_cons, List.cons_append, List.findSome?_cons, recorded]

/-- An evaluator has a problem. -/
theorem problems_of_ofParts {machine : Settings.Machine} {optimisation : Settings.Optimisation}
    {problems : List Problem} {starts : StartPoints} {keepTrajectories : Bool} {e : Evaluator}
    (built : ofParts machine optimisation problems starts keepTrajectories = .ok e) :
    ∃ problem rest, e.problems = problem :: rest := by
  unfold ofParts at built
  split at built
  case isTrue => contradiction
  case isFalse some =>
    split at built
    · contradiction
    · obtain rfl := Except.ok.inj built
      cases problems with
      | nil => simp at some
      | cons problem rest => exact ⟨problem, rest, rfl⟩

/-- Keeping trajectories changes nothing else in an evaluation, and the trajectory has the point
where each member was after each of its turns in the first run on the first problem. -/
theorem recording_observes {machine : Settings.Machine} {optimisation : Settings.Optimisation}
    {problems : List Problem} {starts : StartPoints} {keepTrajectories : Bool} {e : Evaluator}
    (built : ofParts machine optimisation problems starts keepTrajectories = .ok e)
    (i : Individual) (seed : UInt64) :
    (e.recording false).evaluate i seed =
        { (e.recording true).evaluate i seed with trajectory := none } ∧
      ∃ problem, e.problems.head? = some problem ∧
        (0 < e.optimisation.runs →
          (∀ k < e.swarmSize i, ∀ p, e.starts.get? 0 0 k = some p →
            p.length = problem.dimensions) →
          ∃ trajectory, ((e.recording true).evaluate i seed).trajectory = some trajectory ∧
            trajectory.members = e.swarmSize i ∧
            trajectory.moves = e.moves (e.swarmSize i) ∧
            trajectory.dimensions = problem.dimensions ∧
            (∀ k < e.swarmSize i, ∀ s < e.moves (e.swarmSize i),
              ∃! t, t ∈ e.turns i problem 0 0 true (.ofSeed seed) ∧ t.index = k ∧ t.move = s) ∧
            ∀ t ∈ e.turns i problem 0 0 true (.ofSeed seed), ∃ m,
              (t.after (e.course i problem)).members[t.index]? = some m ∧
                trajectory.point? t.index t.move = some m.current) := by
  refine ⟨e.evaluate_recording i seed, ?_⟩
  obtain ⟨problem, rest, first⟩ := problems_of_ofParts built
  refine ⟨problem, by rw [first]; rfl, fun positive given => ?_⟩
  have dimensions := dimensions_of_ofParts built problem (first ▸ List.mem_cons_self)
  have start := Swarm.opening_ofLength (c := e.course i problem) dimensions given
    (e.moves (e.swarmSize i)) true (.ofSeed seed)
  obtain ⟨trajectory, recorded, members, moves, shape, points⟩ :=
    Swarm.run_records (c := e.course i problem) (e.starts.get? 0 0) (e.swarmSize i)
      (e.moves (e.swarmSize i)) (.ofSeed seed) fun t taken m own => by
        have after := (Swarm.turns_invariant Swarm.turn_ofLength start t taken).2
        exact (after.members _ m own).current.trans dimensions.symm
  obtain ⟨runs, many⟩ := Nat.exists_eq_add_one_of_ne_zero (Nat.ne_of_gt positive)
  exact ⟨trajectory, e.evaluate_first i first many recorded, members, moves, shape,
    fun k below s early => Swarm.existsUnique_turn below early, points⟩

theorem recording_observes_duo :
    ofParts duo.machine duo.optimisation duo.problems duo.starts duo.keepTrajectories = .ok duo ∧
      (duo.recording false).evaluate wandering 0 =
        { (duo.recording true).evaluate wandering 0 with trajectory := none } ∧
      ∃ trajectory, ((duo.recording true).evaluate wandering 0).trajectory = some trajectory ∧
        ∃ t ∈ duo.turns wandering .line 0 0 true (.ofSeed 0), ∃ m,
          (t.after (duo.course wandering .line)).members[1]? = some m ∧
            trajectory.point? 1 1 = some m.current := by
  have built : ofParts duo.machine duo.optimisation duo.problems duo.starts
      duo.keepTrajectories = .ok duo := rfl
  obtain ⟨same, problem, first, records⟩ := recording_observes built wandering 0
  obtain rfl : Problem.line = problem := Option.some.inj first
  obtain ⟨trajectory, kept, -, -, -, -, points⟩ := records (by decide) duo_starts_length
  obtain ⟨t, taken, index, move⟩ := duo.exists_turn wandering .line 0 0 true (k := 1) (s := 1)
    (by decide) (by decide) (.ofSeed 0)
  have point := points t taken
  rw [index, move] at point
  exact ⟨built, same, trajectory, kept, t, taken, point⟩

end Evaluator
end SwarmEvolution
