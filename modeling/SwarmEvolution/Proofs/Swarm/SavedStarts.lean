import SwarmEvolution.Proofs.Settings.Validity
import SwarmEvolution.Proofs.Swarm.StartTables

/-! Where saved start points are used. However a table comes about, drawn, read from a file or cut
out of the settings, it has a point for every member of every run, and no start point is drawn
then. -/
namespace SwarmEvolution

open Sampling

namespace StartTable

variable {n count : Nat} {xs : List Float32} {points : List Point}

/-- As many elements as the pieces need are cut into whole pieces. -/
theorem pieces_whole (whole : xs.length = count * n) :
    (pieces n count xs).length = count ∧ ∀ piece ∈ pieces n count xs, piece.length = n := by
  induction count generalizing xs with
  | zero => exact ⟨rfl, fun _ none => nomatch none⟩
  | succ count ih =>
    rw [Nat.succ_mul] at whole
    have rest : (xs.drop n).length = count * n := by
      rw [List.length_drop]
      omega
    obtain ⟨length, pieces⟩ := ih rest
    refine ⟨congrArg (· + 1) length, List.forall_mem_cons.mpr ⟨?_, pieces⟩⟩
    rw [List.length_take]
    omega

/-- Elements for so many whole pieces are cut into these. -/
theorem cut_ok_iff (whole : xs.length = count * n) :
    cut n xs = .ok points ↔ n ≠ 0 ∧ pieces n count xs = points := by
  unfold cut
  split
  case isTrue none => exact iff_of_false nofun fun some => some.1 none
  case isFalse some =>
    have positive : 0 < n := Nat.pos_of_ne_zero some
    have number : (xs.length + n - 1) / n = count := by
      rw [whole, Nat.add_sub_assoc positive, Nat.mul_comm, Nat.mul_add_div positive,
        Nat.div_eq_of_lt (Nat.sub_one_lt some), Nat.add_zero]
    rw [number, Except.ok.injEq, and_iff_right some]

theorem valuesNeeded_ok_iff {members dimensions needed : Nat} :
    valuesNeeded members dimensions = .ok needed ↔
      members * dimensions < UInt64.size ∧ members * dimensions = needed := by
  unfold valuesNeeded
  split
  case isTrue counted => rw [Except.ok.injEq, and_iff_right counted]
  case isFalse beyond => exact iff_of_false nofun fun counted => beyond counted.1

variable {s : Settings.Optimisation} {p : Problem} {problems : List Problem}
  {rows : List (List Point)}

/-- The settings give start points on a problem if a word can count the coordinates of all members
and as many are listed; each run has the first ones of the list. -/
theorem ofSettings_ok_iff : ofSettings s p = .ok rows ↔
    p.dimensions ≠ 0 ∧ s.swarmSize * p.dimensions < UInt64.size ∧
      ∃ values, s.definedStarts.lookup p.name = some values ∧
        s.swarmSize * p.dimensions ≤ values.length ∧
        List.replicate s.runs
          (pieces p.dimensions s.swarmSize (values.take (s.swarmSize * p.dimensions))) = rows := by
  unfold ofSettings
  constructor
  · intro listed
    split at listed
    case h_1 => contradiction
    case h_2 values found =>
      obtain ⟨needed, counted, listed⟩ := Failure.bind_eq_ok_iff.mp listed
      obtain ⟨fits, rfl⟩ := valuesNeeded_ok_iff.mp counted
      split at listed
      case isTrue => contradiction
      case isFalse enough =>
        have enough := Nat.not_lt.mp enough
        obtain ⟨points, made, same⟩ := Failure.bind_eq_ok_iff.mp listed
        obtain ⟨some, rfl⟩ := (cut_ok_iff (List.length_take_of_le enough)).mp made
        exact ⟨some, fits, values, found, enough, Except.ok.inj same⟩
  · rintro ⟨some, fits, values, found, enough, rfl⟩
    rw [found]
    refine Failure.bind_eq_ok_iff.mpr ⟨_, valuesNeeded_ok_iff.mpr ⟨fits, rfl⟩, ?_⟩
    rw [if_neg (Nat.not_lt.mpr enough)]
    have made := (cut_ok_iff (List.length_take_of_le enough)).mpr ⟨some, rfl⟩
    exact Failure.bind_eq_ok_iff.mpr ⟨_, made, rfl⟩

/-- Four coordinates for each of `2 ^ 62` members are more than a word can count. -/
example : ofSettings
    { swarmSize := 2 ^ 62, startMode := .defined, definedStarts := [("sphere", [1, 2, 3, 4])] }
    (Benchmark.sphere.problem 4) = .error .aborted := rfl

theorem ofSettings_covers (listed : ofSettings s p = .ok rows) :
    Covers s.runs s.swarmSize p rows := by
  obtain ⟨-, -, values, -, enough, rfl⟩ := ofSettings_ok_iff.mp listed
  refine ⟨List.length_replicate, fun row mem => ?_⟩
  rw [List.eq_of_mem_replicate mem]
  exact pieces_whole (List.length_take_of_le enough)

theorem mapM_ok {f : Problem → Except Failure (List (List Point))} {t : StartTable}
    (made : problems.mapM f = .ok t) : List.Forall₂ (fun p rows => f p = .ok rows) problems t := by
  induction problems generalizing t with
  | nil =>
    obtain rfl : [] = t := Except.ok.inj made
    exact .nil
  | cons p problems ih =>
    rw [List.mapM_cons] at made
    obtain ⟨rows, first, made⟩ := Failure.bind_eq_ok_iff.mp made
    obtain ⟨others, rest, made⟩ := Failure.bind_eq_ok_iff.mp made
    obtain rfl : rows :: others = t := Except.ok.inj made
    exact .cons first (ih rest)

end StartTable

namespace StartPoints

/-- For each of a number of members there is a point of the right dimensions. -/
def Supplies (starts : StartPoints) (dimensions index run members : Nat) : Prop :=
  ∀ k < members, ∃ point, starts.get? index run k = some point ∧ point.length = dimensions

variable {s : Settings.Optimisation} {problems : List Problem} {p : Problem} {index run : Nat}
  {t : StartTable}

theorem get?_fixed {rows : List (List Point)} {row : List Point} (here : t[index]? = some rows)
    (there : rows[run]? = some row) (k : Nat) : (fixed t).get? index run k = row[k]? := by
  unfold get?
  dsimp only
  rw [here]
  change (rows[run]? >>= fun members => members[k]?) = _
  rw [there]
  rfl

theorem supplies_of_full {runs members : Nat} (full : StartTable.Full problems runs members t)
    (here : problems[index]? = some p) (within : run < runs) :
    (fixed t).Supplies p.dimensions index run members := by
  obtain ⟨inside, rfl⟩ := List.getElem?_eq_some_iff.mp here
  have inside' : index < t.length := full.length_eq ▸ inside
  obtain ⟨length, covers⟩ := (List.forall₂_iff_get.mp full).2 index inside inside'
  have there : run < t[index].length := length.symm ▸ within
  obtain ⟨count, points⟩ := covers t[index][run] (List.getElem_mem there)
  intro k below
  have last : k < t[index][run].length := count.symm ▸ below
  refine ⟨t[index][run][k], ?_, points _ (List.getElem_mem last)⟩
  rw [get?_fixed (List.getElem?_eq_getElem inside') (List.getElem?_eq_getElem there),
    List.getElem?_eq_getElem last]

section Prepared

variable {starts : StartPoints} {d : Directory} {random : Stream}

/-- Start points that are not random are a full table, in every mode. -/
theorem prepare_full (saved : s.startMode ≠ .random)
    (prepared : (prepare s problems d random).1.1 = .ok starts) :
    ∃ t, starts = fixed t ∧ StartTable.Full problems s.runs s.swarmSize t := by
  have full : StartTable.Full problems s.runs s.swarmSize _ := StartTable.draw_full random
  cases mode : s.startMode with
  | random => exact absurd mode saved
  | fixed =>
    unfold prepare at prepared
    rw [mode] at prepared
    exact ⟨_, (Except.ok.inj prepared).symm, full⟩
  | share =>
    by_cases there : d.contains s.startsFile
    · rw [prepare_loads mode there] at prepared
      cases read : StartTable.load d s.startsFile problems s.runs s.swarmSize with
      | error fault => rw [read] at prepared; contradiction
      | ok t =>
        rw [read] at prepared
        exact ⟨t, (Except.ok.inj prepared).symm, StartTable.load_full read⟩
    · rw [prepare_saves problems mode (Bool.eq_false_iff.mpr there)] at prepared
      dsimp only at prepared
      split at prepared
      case h_1 => exact ⟨_, (Except.ok.inj prepared).symm, full⟩
      case h_2 => contradiction
  | defined =>
    unfold prepare at prepared
    rw [mode] at prepared
    change (problems.mapM (StartTable.ofSettings s)).map fixed = .ok starts at prepared
    cases made : problems.mapM (StartTable.ofSettings s) with
    | error fault => rw [made] at prepared; contradiction
    | ok t =>
      rw [made] at prepared
      exact ⟨t, (Except.ok.inj prepared).symm,
        (StartTable.mapM_ok made).imp fun _ _ => StartTable.ofSettings_covers⟩

end Prepared

end StartPoints

namespace Swarm

variable {c : Course} {start? : Nat → Option Point} {size : Nat}

/-- Where all members are given their start points, none is drawn. -/
theorem opening_given (given : ∀ k < size, ∃ point, start? k = some point) (moves : Nat)
    (record : Bool) (random : Stream) :
    (opening c start? size moves record random).2 = (Draw.wide random).2 := by
  have points : Draw.each (startPoint c.problem start?) (List.range size) =
      pure ((List.range size).map fun k => (start? k).getD []) := by
    refine Draw.each_pure fun k mem => ?_
    obtain ⟨point, same⟩ := given k (List.mem_range.mp mem)
    unfold startPoint
    rw [same]
    rfl
  unfold opening start startMembers
  rw [points]
  rfl

end Swarm

namespace Evaluator

variable {e : Evaluator} {i : Individual} {problem : Problem} {index run : Nat}

/-- Every member of a run starts at its own saved point, which has the problem's dimensions, and
nothing but the seed of the machine is drawn before the first turn. -/
def StartsWhereSaved (e : Evaluator) (i : Individual) (problem : Problem) (index run : Nat) :
    Prop :=
  ∀ record random, let opened := e.opening i problem index run record random
    opened.2 = (Draw.wide random).2 ∧ opened.1.members.size = e.swarmSize i ∧
      ∀ k < e.swarmSize i, ∃ point, e.starts.get? index run k = some point ∧
        point.length = problem.dimensions ∧
        opened.1.members[k]? = some (Member.start point (problem.error point))

theorem startsWhereSaved_iff : e.StartsWhereSaved i problem index run ↔
    e.starts.Supplies problem.dimensions index run (e.swarmSize i) := by
  constructor
  · intro starts k below
    obtain ⟨point, saved, dimensions, -⟩ := (starts false (Stream.ofSeed 0)).2.2 k below
    exact ⟨point, saved, dimensions⟩
  · intro supplies record random
    have opened := Swarm.opening_always (c := e.course i problem) (e.starts.get? index run)
      (e.swarmSize i) (e.moves (e.swarmSize i)) record random
    refine ⟨Swarm.opening_given (fun k below => ?_) _ record random, opened.1, fun k below => ?_⟩
    · obtain ⟨point, saved, -⟩ := supplies k below
      exact ⟨point, saved⟩
    · obtain ⟨point, saved, dimensions⟩ := supplies k below
      obtain ⟨own, here, same⟩ := opened.2 k below
      obtain rfl := same point saved
      exact ⟨own, saved, dimensions, here⟩

/-- With settings that are accepted, saved start points are used by all members of all runs of all
individuals, wherever they come from. -/
theorem saved_starts_used {d : Directory} {random : Stream}
    (valid : e.optimisation.validate = .ok ()) (saved : e.optimisation.startMode ≠ .random)
    (prepared : (StartPoints.prepare e.optimisation e.problems d random).1.1 = .ok e.starts) :
    ∀ i index problem, e.problems[index]? = some problem → ∀ run < e.optimisation.runs,
      e.StartsWhereSaved i problem index run := by
  intro i index problem here run within
  have fixed := Settings.Optimisation.evolveSwarmSize_eq_false valid saved
  have size : e.swarmSize i = e.optimisation.swarmSize := by
    unfold swarmSize
    split
    · rw [fixed]
      rfl
    · rfl
  obtain ⟨t, table, full⟩ := StartPoints.prepare_full saved prepared
  rw [startsWhereSaved_iff, size, table]
  exact StartPoints.supplies_of_full full here within

/-- Two members that start in both of two runs at the coordinates that the settings list for
them. -/
def listed : Evaluator where
  machine := { vectorDimensions := 1 }
  optimisation :=
    { swarmSize := 2, moves := 1, runs := 2, startMode := .defined
      definedStarts := [("line", [0.5, -0.25])] }
  problems := [.line]
  starts := .fixed [[[[0.5], [-0.25]], [[0.5], [-0.25]]]]
  keepTrajectories := false

theorem listed_starts_used : listed.optimisation.validate = .ok () ∧
    listed.optimisation.startMode ≠ .random ∧
    (StartPoints.prepare listed.optimisation listed.problems {} (Stream.ofSeed 0)).1.1 =
      .ok listed.starts ∧
    listed.starts.get? 0 1 1 = some [-0.25] ∧ listed.StartsWhereSaved homing .line 0 1 := by
  have valid : listed.optimisation.validate = .ok () := by decide +kernel
  have saved : listed.optimisation.startMode ≠ .random := by decide
  have prepared : (StartPoints.prepare listed.optimisation listed.problems {}
    (Stream.ofSeed 0)).1.1 = .ok listed.starts := rfl
  exact ⟨valid, saved, prepared, rfl,
    saved_starts_used valid saved prepared homing 0 .line rfl 1 Nat.one_lt_two⟩

end Evaluator

end SwarmEvolution
