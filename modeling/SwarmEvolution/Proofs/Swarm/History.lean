import Mathlib.Data.List.Nodup
import SwarmEvolution.Proofs.Sampling.Outcomes
import SwarmEvolution.Swarm.Evaluation

/-! The history of a run: its turns one after the other, each with the swarm and the stream that it
begins with. What the start has and every turn keeps is true before and after each of them. -/
namespace SwarmEvolution

open Sampling Draw

namespace Swarm

/-- A turn that a run takes. -/
structure Turn where
  move : Nat
  /-- Who was the best member when the move began. -/
  best : Nat
  /-- Whose turn it is. -/
  index : Nat
  before : State
  random : Stream

namespace Turn

/-- The swarm after a turn, and the rest of the stream. -/
def outcome (c : Course) (t : Turn) : State × Stream :=
  turn c t.move t.best t.before t.index t.random

def after (c : Course) (t : Turn) : State := (t.outcome c).1

/-- The program that is drawn for a turn. -/
def program (c : Course) (t : Turn) : Program := (c.genotype.draw t.random).1

/-- The machine in which a member's program is about to run. -/
def opened (c : Course) (t : Turn) (member : Member) : Machine :=
  openTurn c t.move t.best t.index (t.before.machine.swapFrame member.frame).1

/-- The machine when a member's program has run. -/
def ran (c : Course) (t : Turn) (member : Member) : Machine :=
  ((t.opened c member).execute (SwarmView.ofMembers t.before.members) (t.program c)
    c.settings.executionLimit).1

/-- When a turn is taken and by whom. -/
def place (t : Turn) : Nat × Nat := (t.move, t.index)

theorem ran_eq (c : Course) (t : Turn) (member : Member) :
    t.ran c member =
      runProgram c t.move t.best t.before t.index member (t.program c) := rfl

theorem after_eq {c : Course} {t : Turn} {member : Member}
    (own : t.before.members[t.index]? = some member) :
    t.after c = afterTurn c t.move t.best t.before t.index member (t.program c) := by
  unfold after outcome turn
  rw [own]
  rfl

end Turn

variable {c : Course}

/-- The turns of one move. -/
def turnsOfMove (c : Course) (number : Nat) (s : State) (random : Stream) : List Turn :=
  let best := bestMember s.members
  (trace (turn c number best) (List.range s.members.size) s random).map
    fun (index, before, random) => { move := number, best, index, before, random }

/-- The turns of all moves. -/
def turnsOfMoves (c : Course) (moves : Nat) (s : State) (random : Stream) : List Turn :=
  (trace (move c) (List.range moves) s random).flatMap
    fun (number, s, random) => turnsOfMove c number s random

/-- The swarm before its first turn. -/
def opening (c : Course) (start? : Nat → Option Point) (size moves : Nat) (record : Bool) :
    Draw State :=
  start c start? size
    (if record then some (Trajectory.rest size moves c.problem.dimensions) else none)

/-- The turns of a whole run. -/
def turns (c : Course) (start? : Nat → Option Point) (size moves : Nat) (record : Bool)
    (random : Stream) : List Turn :=
  let (s, random) := opening c start? size moves record random
  turnsOfMoves c moves s random

/-- Each turn begins with what the one before it has left behind. -/
def Chained (c : Course) : List Turn → (first last : State × Stream) → Prop
  | [], first, last => first = last
  | t :: rest, first, last => (t.before, t.random) = first ∧ Chained c rest (t.outcome c) last

theorem Chained.append {ts us : List Turn} {first middle last : State × Stream}
    (left : Chained c ts first middle) (right : Chained c us middle last) :
    Chained c (ts ++ us) first last := by
  induction ts generalizing first with
  | nil =>
    obtain rfl := left
    exact right
  | cons t ts ih => exact ⟨left.1, ih left.2⟩

theorem turnsOfMove_chained (number : Nat) (s : State) (random : Stream) :
    Chained c (turnsOfMove c number s random) (s, random) (move c s number random) := by
  unfold turnsOfMove move
  generalize List.range s.members.size = members, bestMember s.members = best
  induction members generalizing s random with
  | nil => rfl
  | cons index rest ih => exact ⟨rfl, ih _ _⟩

/-- The turns of a run lead from its start to its end. -/
theorem turns_chained (start? : Nat → Option Point) (size moves : Nat) (record : Bool)
    (random : Stream) :
    Chained c (turns c start? size moves record random)
      (opening c start? size moves record random) (run c start? size moves record random) := by
  suffices all : ∀ numbers s random, Chained c
      ((trace (move c) numbers s random).flatMap fun (number, s, random) =>
        turnsOfMove c number s random) (s, random) (numbers.foldlM (move c) s random) from all _ _ _
  intro numbers
  induction numbers with
  | nil => exact fun _ _ => rfl
  | cons number rest ih =>
    intro s random
    exact (turnsOfMove_chained number s random).append (ih _ _)

section Invariant

variable {P : State → Prop}
  (kept : ∀ number best index s, P s → (turn c number best s index).Always P)
include kept

theorem move_always {s : State} (holds : P s) (number : Nat) : (move c s number).Always P :=
  always_foldlM (fun t before index _ => kept number _ index t before) holds

/-- What the start has and every turn keeps is true of what a run comes to. -/
theorem run_always {start? : Nat → Option Point} {size moves : Nat} {record : Bool}
    (start : (opening c start? size moves record).Always P) :
    (run c start? size moves record).Always P :=
  start.bind fun _ holds =>
    always_foldlM (fun _ before number _ => move_always kept before number) holds

theorem turnsOfMove_invariant {s : State} (holds : P s) (number : Nat) (random : Stream) :
    ∀ t ∈ turnsOfMove c number s random, P t.before ∧ P (t.after c) := by
  intro t member
  obtain ⟨met, among, rfl⟩ := List.mem_map.mp member
  have before := (trace_invariant (fun t before index _ => kept number _ index t before) holds
    met among).2
  exact ⟨before, kept number _ _ _ before _⟩

/-- What the start has and every turn keeps is true before and after every turn. -/
theorem turns_invariant {start? : Nat → Option Point} {size moves : Nat} {record : Bool}
    {random : Stream} (start : P (opening c start? size moves record random).1) :
    ∀ t ∈ turns c start? size moves record random, P t.before ∧ P (t.after c) := by
  intro t member
  obtain ⟨met, among, within⟩ := List.mem_flatMap.mp member
  have before := (trace_invariant (fun s holds number _ => move_always kept holds number) start
    met among).2
  exact turnsOfMove_invariant kept before _ _ t within

end Invariant

/-- What every turn keeps, it keeps whatever program is drawn for it. -/
theorem turn_always {P : State → Prop} (number best index : Nat) {s : State} (same : P s)
    (played : ∀ member program, s.members[index]? = some member →
      P (afterTurn c number best s index member program)) :
    (turn c number best s index).Always P := by
  unfold turn
  split
  · exact always_pure same
  case _ member own => exact always_bind fun program => always_pure (played member program own)

theorem size_turn {n : Nat} (number best index : Nat) (s : State) (size : s.members.size = n) :
    (turn c number best s index).Always fun after => after.members.size = n :=
  turn_always number best index size fun _ _ _ => by simp [afterTurn, size]

theorem startPoint_always (problem : Problem) (start? : Nat → Option Point) (member : Nat) :
    (startPoint problem start? member).Always fun p => ∀ q, start? member = some q → p = q := by
  unfold startPoint
  cases given : start? member with
  | none => exact (always_any _).mono (by simp)
  | some p => exact always_pure (by simp)

section Start

variable {problem : Problem} {start? : Nat → Option Point} {size : Nat} {P : Nat → Point → Prop}

/-- Every member starts with its best point and its current one where its start point is. -/
theorem startMembers_each (one : ∀ k < size, (startPoint problem start? k).Always (P k)) :
    (startMembers problem start? size).Always fun started => started.1.size = size ∧
      ∀ k < size, ∃ p, started.1[k]? = some (Member.start p (problem.error p)) ∧ P k p := by
  have points := each_always fun k member => one k (List.mem_range.mp member)
  refine points.bind fun points all => always_pure ⟨?_, fun k below => ?_⟩
  · simpa using all.length_eq.symm
  · have inside : k < points.length := by simpa [← all.length_eq] using below
    refine ⟨points[k], by simp [inside], ?_⟩
    simpa using (List.forall₂_iff_get.mp all).2 k (by simpa using below) inside

theorem opening_each (one : ∀ k < size, (startPoint c.problem start? k).Always (P k))
    (moves : Nat) (record : Bool) :
    (opening c start? size moves record).Always fun s => s.members.size = size ∧
      ∀ k < size, ∃ p, s.members[k]? = some (Member.start p (c.problem.error p)) ∧ P k p :=
  always_bind fun _ => (startMembers_each one).bind fun _ started => always_pure started

end Start

/-- Every member starts at the point that is given for it, or else at a point that is drawn. -/
theorem opening_always (start? : Nat → Option Point) (size moves : Nat) (record : Bool) :
    (opening c start? size moves record).Always fun s => s.members.size = size ∧
      ∀ k < size, ∃ p, s.members[k]? = some (Member.start p (c.problem.error p)) ∧
        ∀ q, start? k = some q → p = q :=
  opening_each (fun k _ => startPoint_always c.problem start? k) moves record

/-- Every move finds as many members as there were at the start. -/
theorem size_move {n : Nat} {s : State} (size : s.members.size = n) (moves : Nat)
    (random : Stream) :
    ∀ met ∈ trace (move c) (List.range moves) s random, met.2.1.members.size = n := by
  intro met among
  exact (trace_invariant (fun _ same number _ => move_always size_turn same number) size
    met among).2

theorem map_place_turnsOfMove (number : Nat) (s : State) (random : Stream) :
    (turnsOfMove c number s random).map Turn.place =
      (List.range s.members.size).map (number, ·) := by
  let step := turn c number (bestMember s.members)
  calc
    (turnsOfMove c number s random).map Turn.place =
        ((trace step (List.range s.members.size) s random).map (·.1)).map (number, ·) := by
      simp only [turnsOfMove, List.map_map]
      rfl
    _ = (List.range s.members.size).map (number, ·) := by rw [map_fst_trace]

theorem map_place_turnsOfMoves {size : Nat} {s : State} (same : s.members.size = size)
    (moves : Nat) (random : Stream) :
    (turnsOfMoves c moves s random).map Turn.place =
      (List.range moves).product (List.range size) := by
  have each : ∀ met ∈ trace (move c) (List.range moves) s random,
      (turnsOfMove c met.1 met.2.1 met.2.2).map Turn.place =
        (List.range size).map (met.1, ·) := fun met among => by
    rw [map_place_turnsOfMove, size_move same moves random met among]
  calc
    (turnsOfMoves c moves s random).map Turn.place =
        (trace (move c) (List.range moves) s random).flatMap fun met =>
          (List.range size).map (met.1, ·) := by
      rw [turnsOfMoves, List.map_flatMap]
      exact List.flatMap_congr each
    _ = ((trace (move c) (List.range moves) s random).map (·.1)).flatMap fun number =>
          (List.range size).map (number, ·) := by rw [List.flatMap_map]
    _ = (List.range moves).product (List.range size) := by rw [map_fst_trace]; rfl

section Sizes

variable {start? : Nat → Option Point} {size moves : Nat} {record : Bool} {random : Stream}

/-- The number of members stays the same, and every turn is the turn of one of them. -/
theorem turns_index : ∀ t ∈ turns c start? size moves record random,
    t.before.members.size = size ∧ t.index < size := by
  intro t member
  obtain ⟨met, among, within⟩ := List.mem_flatMap.mp member
  have opened := size_move (opening_always _ _ _ _ random).1 moves _ met among
  refine ⟨(turnsOfMove_invariant size_turn opened _ _ t within).1, ?_⟩
  obtain ⟨own, place, rfl⟩ := List.mem_map.mp within
  have inside := (trace_invariant (fun _ same index _ => size_turn _ _ index _ same) opened
    own place).1
  simpa [opened] using inside

/-- In every move all members have their turn, in order. -/
theorem map_place_turns :
    (turns c start? size moves record random).map Turn.place =
      (List.range moves).product (List.range size) :=
  map_place_turnsOfMoves (opening_always start? size moves record random).1 moves _

theorem nodup_place_turns : ((turns c start? size moves record random).map Turn.place).Nodup := by
  rw [map_place_turns]
  exact List.nodup_range.product List.nodup_range

/-- Every member has one turn in every move. -/
theorem existsUnique_turn {k s : Nat} (member : k < size) (move : s < moves) :
    ∃! t, t ∈ turns c start? size moves record random ∧ t.index = k ∧ t.move = s := by
  have place : (s, k) ∈ (turns c start? size moves record random).map Turn.place := by
    rw [map_place_turns]
    exact List.pair_mem_product.mpr ⟨List.mem_range.mpr move, List.mem_range.mpr member⟩
  obtain ⟨t, taken, same⟩ := List.mem_map.mp place
  obtain ⟨same, own⟩ := Prod.mk.inj same
  refine ⟨t, ⟨taken, own, same⟩, ?_⟩
  rintro u ⟨other, mine, when⟩
  exact List.inj_on_of_nodup_map nodup_place_turns other taken
    (Prod.ext (when.trans same.symm) (mine.trans own.symm))

theorem turns_move : ∀ t ∈ turns c start? size moves record random, t.move < moves := by
  intro t taken
  have place : t.place ∈ (turns c start? size moves record random).map Turn.place :=
    List.mem_map_of_mem taken
  rw [map_place_turns] at place
  exact List.mem_range.mp (List.pair_mem_product.mp place).1

end Sizes

end Swarm

namespace Evaluator

/-- What stays the same while an individual's swarm runs on a problem. -/
def course (e : Evaluator) (i : Individual) (problem : Problem) : Swarm.Course :=
  ⟨problem, i.genotype, e.machine⟩

variable (e : Evaluator) (i : Individual) (problem : Problem) (index runNumber : Nat)
  (record : Bool)

/-- The swarm of a run before its first turn. -/
def opening : Draw Swarm.State :=
  Swarm.opening (e.course i problem) (e.starts.get? index runNumber) (e.swarmSize i)
    (e.moves (e.swarmSize i)) record

/-- The turns of a run. -/
def turns (random : Stream) : List Swarm.Turn :=
  Swarm.turns (e.course i problem) (e.starts.get? index runNumber) (e.swarmSize i)
    (e.moves (e.swarmSize i)) record random

/-- The turns lead from the swarm before them to what the run comes to. -/
theorem run_chained (random : Stream) :
    Swarm.Chained (e.course i problem) (e.turns i problem index runNumber record random)
      (e.opening i problem index runNumber record random)
      (e.run i problem index runNumber record random) :=
  Swarm.turns_chained ..

/-- There is a turn for every member and move, so what holds of all turns holds of some. -/
theorem exists_turn {k s : Nat} (member : k < e.swarmSize i) (move : s < e.moves (e.swarmSize i))
    (random : Stream) :
    ∃ t ∈ e.turns i problem index runNumber record random, t.index = k ∧ t.move = s :=
  (Swarm.existsUnique_turn member move).exists

end Evaluator

/-- The distance from zero on the line between minus one and one. -/
def Problem.line : Problem where
  name := "line"
  dimensions := 1
  bound _ := ⟨-1, 1⟩
  error p := (p.headD 0).abs

namespace Evaluator

/-- One member with one move, which starts from a fixed point of a line. -/
def lone : Evaluator where
  machine := { vectorDimensions := 1 }
  optimisation := { swarmSize := 1, moves := 1, runs := 1 }
  problems := [.line]
  starts := .fixed [[[[0.5]]]]
  keepTrajectories := false

/-- Two members with two moves, which start from fixed points of a line. -/
def duo : Evaluator :=
  { lone with
    optimisation := { swarmSize := 2, moves := 2, runs := 1 }
    starts := .fixed [[[[0.5], [-0.25]]]] }

/-- Moves to a random point. -/
def wandering : Individual := .ofProgram ⟨[.instruction (.vector .random)]⟩

/-- Moves to the origin of a line. -/
def homing : Individual := .ofProgram ⟨[.atom (.float 0), .instruction (.vector .fromFloats)]⟩

end Evaluator

end SwarmEvolution
