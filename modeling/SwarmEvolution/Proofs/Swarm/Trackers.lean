import SwarmEvolution.Proofs.Swarm.BestValue
import SwarmEvolution.Proofs.Swarm.Isolation

/-! The success of a run is followed twice: by the best value of every member, which gives way to an
error that is no higher, and by the one of the run, which gives way to a lower one. They agree as
long as no member starts at an error that is no number. Such a member never lets go of its start. -/
namespace SwarmEvolution

open Sampling Draw Number

namespace Swarm

/-- A value is the smallest of some errors as a number; those that are no numbers are left out. -/
structure SmallestOf (errors : List Float32) (value : Float32) : Prop where
  reached : ∃ x ∈ errors, x ≤ value
  lowest : ∀ x ∈ errors, x.isNaN = false → value ≤ x

/-- A value is the smallest of some errors if there is a number among them. -/
def Follows (errors : List Float32) (value : Float32) : Prop :=
  (∃ x ∈ errors, x.isNaN = false) → SmallestOf errors value

/-- Gives way to an error that is no higher. -/
def yieldTo (value best : Float32) : Float32 := if value ≤ best then value else best

/-- The personal best value that is left of an earlier one and some errors. -/
def acceptFrom (best : Float32) (errors : List Float32) : Float32 :=
  errors.foldl (fun best value => yieldTo value best) best

section Accepting

variable {errors : List Float32} {best : Float32}

theorem acceptFrom_append (first rest : List Float32) :
    acceptFrom best (first ++ rest) = acceptFrom (acceptFrom best first) rest :=
  List.foldl_append

theorem acceptFrom_mem : acceptFrom best errors ∈ best :: errors := by
  induction errors generalizing best with
  | nil => exact .head _
  | cons value rest ih =>
    rcases List.mem_cons.mp (@ih (yieldTo value best)) with same | later
    · have kept : acceptFrom best (value :: rest) = yieldTo value best := same
      rw [kept, yieldTo]
      split <;> simp
    · exact .tail _ (.tail _ later)

/-- What is no number is not higher than anything, and stays. -/
theorem acceptFrom_stuck (stuck : best.isNaN = true) : acceptFrom best errors = best := by
  induction errors with
  | nil => rfl
  | cons value rest ih =>
    have refused : ¬ value ≤ best := fun atMost =>
      Bool.false_ne_true ((le_iff.mp atMost).2.1.symm.trans stuck)
    change acceptFrom (yieldTo value best) rest = best
    rw [yieldTo, if_neg refused, ih]

theorem SmallestOf.widen {less more : List Float32} {value : Float32}
    (smallest : SmallestOf less value) (within : less ⊆ more)
    (higher : ∀ y ∈ more, y.isNaN = false → ∃ x ∈ less, x ≤ y) : SmallestOf more value := by
  obtain ⟨x, member, atMost⟩ := smallest.reached
  refine ⟨⟨x, within member, atMost⟩, fun y among known => ?_⟩
  obtain ⟨lower, own, below⟩ := higher y among known
  exact Number.le_trans (smallest.lowest lower own (le_iff.mp below).1) below

theorem acceptFrom_smallest (number : best.isNaN = false) :
    SmallestOf (best :: errors) (acceptFrom best errors) := by
  induction errors generalizing best with
  | nil =>
    have self := Number.le_refl number
    exact ⟨⟨best, .head _, self⟩, List.forall_mem_singleton.mpr fun _ => self⟩
  | cons value rest ih =>
    change SmallestOf _ (acceptFrom (yieldTo value best) rest)
    by_cases accepted : value ≤ best
    · rw [yieldTo, if_pos accepted]
      refine (ih (le_iff.mp accepted).1).widen (List.subset_cons_self ..) fun y among known => ?_
      rcases List.mem_cons.mp among with rfl | later
      · exact ⟨value, .head _, accepted⟩
      · exact ⟨y, later, Number.le_refl known⟩
    · rw [yieldTo, if_neg accepted]
      have within : best :: rest ⊆ best :: value :: rest :=
        List.cons_subset_cons best (List.subset_cons_self ..)
      refine (ih number).widen within fun y among known => ?_
      rcases List.mem_cons.mp among with rfl | among
      · exact ⟨y, .head _, Number.le_refl known⟩
      rcases List.mem_cons.mp among with rfl | later
      · exact ⟨best, .head _, le_of_not_le known number accepted⟩
      · exact ⟨y, .tail _ later, Number.le_refl known⟩

/-- A personal best follows its errors exactly if it begins with a number or none ever comes. -/
theorem follows_acceptFrom_iff : Follows (best :: errors) (acceptFrom best errors) ↔
    best.isNaN = false ∨ ∀ x ∈ best :: errors, x.isNaN = true := by
  constructor
  · intro follows
    cases start : best.isNaN with
    | false => exact .inl rfl
    | true =>
      refine .inr fun x member => ?_
      by_contra known
      have known : x.isNaN = false := Bool.eq_false_iff.mpr known
      have below := (follows ⟨x, member, known⟩).lowest x member known
      rw [acceptFrom_stuck start] at below
      exact Bool.false_ne_true ((le_iff.mp below).1.symm.trans start)
  · rintro (number | none) ⟨x, member, known⟩
    · exact acceptFrom_smallest number
    · exact absurd (known.symm.trans (none x member)) Bool.false_ne_true

end Accepting

variable {c : Course}

/-- The best values of all members. -/
def State.bestValues (s : State) : List Float32 := s.members.toList.map (·.bestValue)

/-- The errors that the turns of one member lead to. -/
def ownErrors (c : Course) (k : Nat) (ts : List Turn) : List Float32 :=
  (ts.filter (·.index = k)).filterMap (Turn.error? c)

theorem mem_ownErrors {ts : List Turn} {k : Nat} {x : Float32} :
    x ∈ ownErrors c k ts ↔ ∃ t ∈ ts, t.index = k ∧ t.error? c = some x := by
  simp [ownErrors, List.mem_filterMap, and_assoc]

theorem Turn.bestValue_own {t : Turn} {m : Member} (own : t.before.members[t.index]? = some m) :
    ∃ after, (t.after c).members[t.index]? = some after ∧
      after.bestValue = acceptFrom m.bestValue (t.error? c).toList := by
  have inside := (Array.getElem?_eq_some_iff.mp own).1
  have moved : (t.after c).members[t.index]? =
      some (m.settle c.problem (t.ran c m).frame) := by
    rw [after_members own, Array.getElem?_setIfInBounds_self_of_lt inside]
  refine ⟨_, moved, ?_⟩
  rw [error?, moved]
  generalize point : (t.ran c m).frame.vectors.top?.getD m.current = p
  by_cases within : c.problem.within p
  case neg =>
    rw [Member.settle_outside point (by simpa using within)]
    simp [within, acceptFrom]
  by_cases better : c.problem.error p ≤ m.bestValue
  · rw [Member.settle_accepted point within better]
    simp [within, better, acceptFrom, yieldTo]
  · rw [Member.settle_rejected point within better]
    simp [within, better, acceptFrom, yieldTo]

/-- The best value of a member comes from its own turns alone. -/
theorem Chained.memberBest {ts : List Turn} {first last : State × Stream}
    (chained : Chained c ts first last) {k : Nat} {m : Member}
    (own : first.1.members[k]? = some m) :
    ∃ after, last.1.members[k]? = some after ∧
      after.bestValue = acceptFrom m.bestValue (ownErrors c k ts) := by
  induction ts generalizing first m with
  | nil =>
    obtain rfl := chained
    exact ⟨m, own, rfl⟩
  | cons t ts ih =>
    obtain ⟨rfl, rest⟩ := chained
    by_cases mine : t.index = k
    · subst mine
      obtain ⟨next, moved, turned⟩ := t.bestValue_own (c := c) own
      obtain ⟨after, found, same⟩ := ih rest moved
      refine ⟨after, found, ?_⟩
      have met : ownErrors c t.index (t :: ts) =
          (t.error? c).toList ++ ownErrors c t.index ts := by
        cases led : t.error? c <;> simp [ownErrors, led]
      rw [same, turned, met, acceptFrom_append]
    · have others := turn_others (c := c) t.move t.best t.index t.before t.random k (Ne.symm mine)
      obtain ⟨after, found, same⟩ := ih rest (others.trans own)
      have met : ownErrors c k (t :: ts) = ownErrors c k ts := by simp [ownErrors, mine]
      exact ⟨after, found, met ▸ same⟩

end Swarm

namespace Evaluator

variable (e : Evaluator) (i : Individual) (problem : Problem) (index runNumber : Nat)
  (record : Bool) (random : Stream)

/-- The errors that one member meets in a run: at its start point, and at the points within the
bounds that its turns lead to. -/
def errorsMetBy (k : Nat) : List Float32 :=
  ((e.opening i problem index runNumber record random).1.members[k]?.map
      fun m => problem.error m.current).toList ++
    Swarm.ownErrors (e.course i problem) k (e.turns i problem index runNumber record random)

/-- Every error that a run meets is met by one of the members. -/
theorem mem_errorsMet_iff {x : Float32} :
    x ∈ e.errorsMet i problem index runNumber record random ↔
      ∃ k < e.swarmSize i, x ∈ e.errorsMetBy i problem index runNumber record random k := by
  have size : (e.opening i problem index runNumber record random).1.members.size =
      e.swarmSize i := (Swarm.opening_always _ _ _ _ random).1
  constructor
  · intro met
    rcases List.mem_append.mp met with start | later
    · obtain ⟨m, member, rfl⟩ := List.mem_map.mp start
      obtain ⟨k, inside, rfl⟩ := Array.mem_iff_getElem.mp (Array.mem_toList_iff.mp member)
      exact ⟨k, size ▸ inside, List.mem_append_left _ (by simp [inside])⟩
    · obtain ⟨t, taken, led⟩ := List.mem_filterMap.mp later
      refine ⟨t.index, (Swarm.turns_index t taken).2, List.mem_append_right _ ?_⟩
      exact Swarm.mem_ownErrors.mpr ⟨t, taken, rfl, led⟩
  · rintro ⟨k, -, met⟩
    rcases List.mem_append.mp met with start | later
    · obtain ⟨m, own, rfl⟩ := Option.map_eq_some_iff.mp (Option.mem_toList.mp start)
      refine List.mem_append_left _ (List.mem_map.mpr ⟨m, ?_, rfl⟩)
      exact Array.mem_toList_iff.mpr (Array.mem_of_getElem? own)
    · obtain ⟨t, taken, -, led⟩ := Swarm.mem_ownErrors.mp later
      exact List.mem_append_right _ (List.mem_filterMap.mpr ⟨t, taken, led⟩)

/-- A member ends with what its start leaves of the errors that its own turns lead to. -/
theorem run_memberBest {k : Nat} {first : Member}
    (own : (e.opening i problem index runNumber record random).1.members[k]? = some first) :
    ∃ last, (e.run i problem index runNumber record random).1.members[k]? = some last ∧
      ∃ later, e.errorsMetBy i problem index runNumber record random k =
        problem.error first.current :: later ∧
          last.bestValue = Swarm.acceptFrom (problem.error first.current) later := by
  obtain ⟨same, started⟩ := Swarm.opening_always (c := e.course i problem)
    (e.starts.get? index runNumber) (e.swarmSize i) (e.moves (e.swarmSize i)) record random
  have below : k < e.swarmSize i := same ▸ (Array.getElem?_eq_some_iff.mp own).1
  obtain ⟨p, start, -⟩ := started k below
  obtain rfl : first = Member.start p (problem.error p) := Option.some.inj (own.symm.trans start)
  obtain ⟨last, found, best⟩ :=
    (e.run_chained i problem index runNumber record random).memberBest own
  exact ⟨last, found, _, by rw [errorsMetBy, own]; rfl, best⟩

theorem size_run : (e.run i problem index runNumber record random).1.members.size =
    e.swarmSize i :=
  Swarm.run_always Swarm.size_turn
    ((Swarm.opening_always _ _ _ _).mono fun _ started => started.1) random

theorem exists_opened {k : Nat} (below : k < e.swarmSize i) :
    ∃ first, (e.opening i problem index runNumber record random).1.members[k]? = some first := by
  obtain ⟨-, started⟩ := Swarm.opening_always (c := e.course i problem)
    (e.starts.get? index runNumber) (e.swarmSize i) (e.moves (e.swarmSize i)) record random
  obtain ⟨p, start, -⟩ := started k below
  exact ⟨_, start⟩

/-- The best value of every member is an error that the run has met. -/
theorem bestValues_met : ∀ y ∈ (e.run i problem index runNumber record random).1.bestValues,
    y ∈ e.errorsMet i problem index runNumber record random := by
  intro y among
  obtain ⟨last, member, rfl⟩ := List.mem_map.mp among
  obtain ⟨k, inside, rfl⟩ := Array.mem_iff_getElem.mp (Array.mem_toList_iff.mp member)
  have below : k < e.swarmSize i := size_run e i problem index runNumber record random ▸ inside
  obtain ⟨first, own⟩ := e.exists_opened i problem index runNumber record random below
  obtain ⟨last, found, later, met, best⟩ :=
    e.run_memberBest i problem index runNumber record random own
  obtain rfl : _ = last := Option.some.inj ((Array.getElem?_eq_getElem inside).symm.trans found)
  refine (mem_errorsMet_iff ..).mpr ⟨k, below, ?_⟩
  rw [met, best]
  exact Swarm.acceptFrom_mem

/-- The best value of a run is the smallest of those of its members and the largest number, exactly
if no member that starts at an error that is no number meets a smaller one. -/
theorem run_smallest_iff :
    Swarm.SmallestOf (largest :: (e.run i problem index runNumber record random).1.bestValues)
        (e.run i problem index runNumber record random).1.bestValue ↔
      ∀ (k : Nat) (first : Member),
        (e.opening i problem index runNumber record random).1.members[k]? = some first →
          (problem.error first.current).isNaN = true →
            ∀ x ∈ e.errorsMetBy i problem index runNumber record random k, x.isNaN = false →
              ∃ y ∈ largest :: (e.run i problem index runNumber record random).1.bestValues,
                y ≤ x := by
  have opened : (e.opening i problem index runNumber record random).1.members.size =
      e.swarmSize i := (Swarm.opening_always _ _ _ _ random).1
  have lowest := e.run_lowest i problem index runNumber record random
  constructor
  · intro smallest k first own _ x met known
    have below : k < e.swarmSize i := opened ▸ (Array.getElem?_eq_some_iff.mp own).1
    obtain ⟨y, among, atMost⟩ := smallest.reached
    have least := lowest.lowest x ((mem_errorsMet_iff ..).mpr ⟨k, below, met⟩) known
    exact ⟨y, among, Number.le_trans atMost least⟩
  · intro covered
    refine ⟨?_, fun y among known => ?_⟩
    · rcases lowest.met with unmet | met
      · exact ⟨largest, .head _, unmet ▸ lowest.bounded⟩
      obtain ⟨k, below, own⟩ := (mem_errorsMet_iff ..).mp met
      obtain ⟨first, opened⟩ := e.exists_opened i problem index runNumber record random below
      cases start : (problem.error first.current).isNaN with
      | true => exact covered k first opened start _ own lowest.number
      | false =>
        obtain ⟨last, found, later, all, best⟩ :=
          e.run_memberBest i problem index runNumber record random opened
        rw [all] at own
        refine ⟨last.bestValue, .tail _ (List.mem_map.mpr ⟨last, ?_, rfl⟩), ?_⟩
        · exact Array.mem_toList_iff.mpr (Array.mem_of_getElem? found)
        · rw [best]
          exact (Swarm.acceptFrom_smallest start).lowest _ own lowest.number
    · rcases List.mem_cons.mp among with rfl | member
      · exact lowest.bounded
      · exact lowest.lowest y (e.bestValues_met i problem index runNumber record random y member)
          known

/-- The best value of a member is the smallest of the errors that it has met, exactly if its start
has an error that is a number or it has met no number at all. The best value of the run is the
smallest of those of its members, exactly if no member that starts at an error that is no number has
met a smaller one. -/
theorem trackers_agree_iff :
    (∀ (k : Nat) (first : Member),
      (e.opening i problem index runNumber record random).1.members[k]? = some first →
        ∃ last, (e.run i problem index runNumber record random).1.members[k]? = some last ∧
          last.bestValue ∈ e.errorsMetBy i problem index runNumber record random k ∧
          (Swarm.Follows (e.errorsMetBy i problem index runNumber record random k)
              last.bestValue ↔
            (problem.error first.current).isNaN = false ∨
              ∀ x ∈ e.errorsMetBy i problem index runNumber record random k, x.isNaN = true)) ∧
    (Swarm.SmallestOf (largest :: (e.run i problem index runNumber record random).1.bestValues)
        (e.run i problem index runNumber record random).1.bestValue ↔
      ∀ (k : Nat) (first : Member),
        (e.opening i problem index runNumber record random).1.members[k]? = some first →
          (problem.error first.current).isNaN = true →
            ∀ x ∈ e.errorsMetBy i problem index runNumber record random k, x.isNaN = false →
              ∃ y ∈ largest :: (e.run i problem index runNumber record random).1.bestValues,
                y ≤ x) := by
  refine ⟨fun k first own => ?_, run_smallest_iff ..⟩
  obtain ⟨last, found, later, met, best⟩ :=
    e.run_memberBest i problem index runNumber record random own
  refine ⟨last, found, ?_⟩
  rw [met, best]
  exact ⟨Swarm.acceptFrom_mem, Swarm.follows_acceptFrom_iff⟩

/-- A member that starts where the error is no number. -/
def stranded : Evaluator := { lone with starts := .fixed [[[[0 / 0]]]] }

theorem duo_trackers_agree :
    ∃ first, (duo.opening homing .line 0 0 false (.ofSeed 0)).1.members[0]? = some first ∧
      (Problem.line.error first.current).isNaN = false ∧
      ∃ last, (duo.run homing .line 0 0 false (.ofSeed 0)).1.members[0]? = some last ∧
        Swarm.Follows (duo.errorsMetBy homing .line 0 0 false (.ofSeed 0) 0) last.bestValue := by
  obtain ⟨first, own⟩ := duo.exists_opened homing .line 0 0 false (.ofSeed 0) (k := 0) (by decide)
  have start : (duo.opening homing .line 0 0 false (.ofSeed 0)).1.members[0]?.map
      (fun m => (Problem.line.error m.current).isNaN) = some false := by decide +kernel
  have number : (Problem.line.error first.current).isNaN = false := by
    rw [own] at start
    exact Option.some.inj start
  obtain ⟨last, found, -, follows⟩ :=
    (trackers_agree_iff duo homing .line 0 0 false (.ofSeed 0)).1 0 first own
  exact ⟨first, own, number, last, found, follows.mpr (.inl number)⟩

/-- There the run comes to zero, but the best value of its only member is no number. -/
theorem stranded_trackers_disagree :
    ofParts stranded.machine stranded.optimisation stranded.problems stranded.starts
      stranded.keepTrajectories = .ok stranded ∧
    ∃ last, (stranded.run homing .line 0 0 false (.ofSeed 0)).1.members[0]? = some last ∧
      ¬ Swarm.Follows (stranded.errorsMetBy homing .line 0 0 false (.ofSeed 0) 0)
        last.bestValue ∧
      ¬ Swarm.SmallestOf
        (largest :: (stranded.run homing .line 0 0 false (.ofSeed 0)).1.bestValues)
        (stranded.run homing .line 0 0 false (.ofSeed 0)).1.bestValue := by
  have met : stranded.errorsMetBy homing .line 0 0 false (.ofSeed 0) 0 = [0 / 0, 0] := by
    decide +kernel
  have best : (stranded.run homing .line 0 0 false (.ofSeed 0)).1.members[0]?.map
      (·.bestValue) = some (0 / 0) := by decide +kernel
  have all : (stranded.run homing .line 0 0 false (.ofSeed 0)).1.bestValues = [0 / 0] := by
    decide +kernel
  have total : (stranded.run homing .line 0 0 false (.ofSeed 0)).1.bestValue = 0 := by
    decide +kernel
  obtain ⟨last, found, lost⟩ := Option.map_eq_some_iff.mp best
  rw [met, all, total]
  refine ⟨rfl, last, found, fun follows => ?_, fun smallest => ?_⟩
  · have numbers : ∃ x ∈ [0 / 0, (0 : Float32)], x.isNaN = false := ⟨0, by simp, by decide⟩
    have atMost : last.bestValue ≤ 0 := (follows numbers).lowest 0 (by simp) (by decide)
    rw [lost] at atMost
    exact absurd atMost (by decide)
  · exact absurd smallest.reached (by decide)

end Evaluator
end SwarmEvolution
