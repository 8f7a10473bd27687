import SwarmEvolution.Proofs.Breeding.Groups
import SwarmEvolution.Proofs.Number.Order

/-! Survivors. The place of a parent goes to the parent or to the child matched to it, no child goes
to two places, and none ends with a fitness below its parent's. The places are settled one after
another, which comes to the same as flipping the coins of the tied ones first. -/
namespace SwarmEvolution.Breeding

open Sampling Draw

/-- A place, its parent, and the child that may take it. -/
structure Contest where
  place : Nat
  parent : Individual
  child : Option Individual

/-- The coins of some places, one for each of them. -/
def flips (places : List Nat) : Draw (List (Nat × Bool)) :=
  each (fun place => do return (place, ← coin)) places

theorem flips_places (places : List Nat) :
    (flips places).Always fun coins => coins.map (·.1) = places := by
  have named : (flips places).Always fun coins => coins.map (·.1) = places.map id :=
    each_map fun place _ => always_bind fun _ => always_pure rfl
  simpa using named

namespace Contest

/-- The fitness values of parent and child are equal. -/
def tied (c : Contest) : Bool :=
  c.child.any fun child => child.fitnessOrWorst.value == c.parent.fitnessOrWorst.value

def settle (c : Contest) : Draw Individual :=
  match c.child with
  | none => return c.parent
  | some child => do
    let wins ← replaces c.parent.fitnessOrWorst.value child.fitnessOrWorst.value
    return if wins then child else c.parent

/-- The child takes the place, as its fitness is greater or the coin of the tied place says so. -/
def Won (coins : List (Nat × Bool)) (c : Contest) : Prop :=
  ∃ child, c.child = some child ∧
    (c.parent.fitnessOrWorst.value < child.fitnessOrWorst.value ∨
      c.tied ∧ (c.place, true) ∈ coins)

/-- Who is left in the place, given the coins. -/
def survivor (coins : List (Nat × Bool)) (c : Contest) : Individual :=
  match c.child with
  | none => c.parent
  | some child =>
    if c.parent.fitnessOrWorst.value < child.fitnessOrWorst.value ∨
      c.tied ∧ (c.place, true) ∈ coins then child else c.parent

variable {c : Contest} {coins : List (Nat × Bool)} {child : Individual}

theorem survivor_of_won (won : c.Won coins) : c.child = some (c.survivor coins) := by
  obtain ⟨child, challenges, wins⟩ := won
  rw [survivor, challenges]
  exact congrArg some (if_pos wins).symm

theorem survivor_of_not_won (lost : ¬ c.Won coins) : c.survivor coins = c.parent := by
  rw [survivor]
  split
  · rfl
  · next child challenges => exact if_neg fun wins => lost ⟨child, challenges, wins⟩

theorem tied_iff (challenges : c.child = some child) :
    c.tied ↔ child.fitnessOrWorst.value == c.parent.fitnessOrWorst.value := by
  rw [tied, challenges, Option.any_some]

theorem not_lt_of_tied (challenges : c.child = some child) (tie : c.tied) :
    ¬ c.parent.fitnessOrWorst.value < child.fitnessOrWorst.value := by
  obtain ⟨-, -, same⟩ := Number.beq_iff.mp ((tied_iff challenges).mp tie)
  rw [Number.lt_iff]
  omega

theorem survivor_not_lt (c : Contest) (coins : List (Nat × Bool)) :
    (c.survivor coins).fitnessOrWorst.value < c.parent.fitnessOrWorst.value → False := by
  intro less
  obtain ⟨-, -, lower⟩ := Number.lt_iff.mp less
  by_cases won : c.Won coins
  · have challenges := survivor_of_won won
    obtain ⟨child, named, wins⟩ := won
    obtain rfl := Option.some.inj (challenges.symm.trans named)
    rcases wins with greater | ⟨tie, -⟩
    · obtain ⟨-, -, higher⟩ := Number.lt_iff.mp greater
      omega
    · obtain ⟨-, -, same⟩ := Number.beq_iff.mp ((tied_iff challenges).mp tie)
      omega
  · rw [survivor_of_not_won won] at lower
    omega

/-- A place that is not tied needs no coin. -/
theorem settle_of_not_tied (decided : ¬ c.tied) (coins : List (Nat × Bool)) :
    c.settle = pure (c.survivor coins) := by
  rw [settle, survivor]
  split
  · rfl
  · next child challenges =>
    rw [tied_iff challenges] at decided
    by_cases greater : c.parent.fitnessOrWorst.value < child.fitnessOrWorst.value
    · rw [replaces, if_pos greater, if_pos (.inl greater)]
      rfl
    · have lost : ¬ (c.parent.fitnessOrWorst.value < child.fitnessOrWorst.value ∨
          c.tied ∧ (c.place, true) ∈ coins) := by
        rw [tied_iff challenges]
        simp [greater, decided]
      rw [replaces, if_neg greater, if_neg decided, if_neg lost]
      rfl

/-- A tied place needs one. -/
theorem settle_of_tied (tie : c.tied) (others : (c.place, true) ∉ coins) (random : Stream) :
    c.settle random =
      (c.survivor ((c.place, (coin random).1) :: coins), (coin random).2) := by
  obtain ⟨child, challenges, equal⟩ := Option.any_eq_true .. |>.mp tie
  have even := not_lt_of_tied challenges tie
  have heads : (c.parent.fitnessOrWorst.value < child.fitnessOrWorst.value ∨
      c.tied ∧ (c.place, true) ∈ (c.place, (coin random).1) :: coins) ↔ (coin random).1 = true := by
    simp [even, tie, others, eq_comm (a := true)]
  rw [settle, survivor, challenges]
  simp only [replaces, if_neg even, if_pos equal, heads]
  rfl

theorem survivor_cons_of_ne {place : Nat} (apart : c.place ≠ place) (heads : Bool) :
    c.survivor ((place, heads) :: coins) = c.survivor coins := by
  simp [survivor, apart]

end Contest

/-- The coins of the tied places. -/
def tieBreaks (cs : List Contest) : Draw (List (Nat × Bool)) :=
  flips ((cs.filter (·.tied)).map (·.place))

theorem tieBreaks_cons_of_tied {c : Contest} (tie : c.tied) (cs : List Contest)
    (random : Stream) :
    tieBreaks (c :: cs) random =
      ((c.place, (coin random).1) :: (tieBreaks cs (coin random).2).1,
        (tieBreaks cs (coin random).2).2) := by
  have ties : (c :: cs).filter (·.tied) = c :: cs.filter (·.tied) := List.filter_cons_of_pos tie
  rw [tieBreaks, ties]
  rfl

theorem tieBreaks_cons_of_not_tied {c : Contest} (decided : ¬ c.tied) (cs : List Contest) :
    tieBreaks (c :: cs) = tieBreaks cs := by
  rw [tieBreaks, List.filter_cons_of_neg decided]
  rfl

theorem tieBreaks_places (cs : List Contest) :
    (tieBreaks cs).Always fun coins => ∀ flip ∈ coins, flip.1 ∈ cs.map (·.place) :=
  (flips_places _).mono fun coins places flip member => by
    have tied := List.mem_map_of_mem (f := (·.1)) member
    rw [places] at tied
    exact List.map_subset _ (List.filter_subset_self _) tied

/-- Settling the places one after another is flipping the coins of the tied ones and then looking at
them. -/
theorem each_settle {cs : List Contest} (apart : (cs.map (·.place)).Nodup) (random : Stream) :
    each Contest.settle cs random =
      (cs.map (·.survivor (tieBreaks cs random).1), (tieBreaks cs random).2) := by
  induction cs generalizing random with
  | nil => rfl
  | cons c cs ih =>
    obtain ⟨new, apart⟩ := List.nodup_cons.mp apart
    rw [each, bind_apply, bind_apply, pure_apply, ih apart]
    by_cases tie : c.tied
    · -- The head takes the first coin, which none of the later places looks at.
      have others : (c.place, true) ∉ (tieBreaks cs (coin random).2).1 := fun member =>
        new (tieBreaks_places cs _ _ member)
      have unseen : ∀ d ∈ cs, d.place ≠ c.place := fun d member same =>
        new (List.mem_map.mpr ⟨d, member, same⟩)
      rw [tieBreaks_cons_of_tied tie, Contest.settle_of_tied tie others]
      refine Prod.ext (congrArg (List.cons _) (List.map_congr_left fun d member => ?_)) rfl
      exact (Contest.survivor_cons_of_ne (unseen d member) _).symm
    · rw [tieBreaks_cons_of_not_tied tie, Contest.settle_of_not_tied tie]
      rfl

section Places

variable (children : List Individual)

/-- The contests for some places, counted on from one of them, where some children are gone. -/
def contestsFrom : (place : Nat) → (gone : List Nat) → List (Individual × Nat) → List Contest
  | _, _, [] => []
  | place, gone, (parent, j) :: rest =>
    ⟨place, parent, if j ∈ gone then none else children[j]?⟩ ::
      contestsFrom (place + 1) (j :: gone) rest

/-- The children that are left when some are gone. -/
def Left (gone : List Nat) (left : List (Option Individual)) : Prop :=
  ∀ j, left[j]? = children[j]?.map fun child => if j ∈ gone then none else some child

/-- A child is gone once it has been matched, whether it took the place or not. -/
theorem fillPlaces_eq_each {places : List (Individual × Nat)} {gone : List Nat}
    {left : List (Option Individual)} (remaining : Left children gone left) (place : Nat) :
    fillPlaces places left = each Contest.settle (contestsFrom children place gone places) := by
  induction places generalizing gone left place with
  | nil => rfl
  | cons first rest ih =>
    obtain ⟨parent, j⟩ := first
    have found := remaining j
    cases listed : children[j]? with
    | none =>
      have after : Left children (j :: gone) left := by
        intro k
        rw [remaining k]
        by_cases same : k = j
        · rw [same, listed]
          rfl
        · simp [same]
      rw [listed, Option.map_none] at found
      rw [fillPlaces, contestsFrom, each, found, listed, ih after, ite_self]
      rfl
    | some child =>
      rw [listed, Option.map_some] at found
      by_cases matched : j ∈ gone
      · have after : Left children (j :: gone) left := by
          intro k
          rw [remaining k]
          by_cases same : k = j
          · simp [same, matched]
          · simp [same]
        rw [if_pos matched] at found
        rw [fillPlaces, contestsFrom, each, found, if_pos matched, ih after]
        rfl
      · have after : Left children (j :: gone) (left.set j none) := by
          intro k
          by_cases same : k = j
          · subst same
            have inside := (List.getElem?_eq_some_iff.mp found).1
            rw [List.getElem?_set_self inside, listed]
            simp
          · rw [List.getElem?_set_ne (Ne.symm same), remaining k]
            simp [same]
        rw [if_neg matched] at found
        rw [fillPlaces, contestsFrom, each, found, if_neg matched, listed, ← ih after]
        rfl

theorem contestsFrom_places (place : Nat) (gone : List Nat) (places : List (Individual × Nat)) :
    (contestsFrom children place gone places).map (·.place) = List.range' place places.length := by
  induction places generalizing place gone with
  | nil => rfl
  | cons first rest ih => exact congrArg (place :: ·) (ih ..)

theorem getElem?_contestsFrom (place : Nat) (gone : List Nat) (places : List (Individual × Nat))
    (i : Nat) :
    (contestsFrom children place gone places)[i]? = places[i]?.map fun (parent, j) =>
      ⟨place + i, parent,
        if j ∈ gone ∨ j ∈ (places.take i).map (·.2) then none else children[j]?⟩ := by
  induction places generalizing place gone i with
  | nil => rfl
  | cons first rest ih =>
    cases i with
    | zero => simp [contestsFrom]
    | succ i =>
      obtain ⟨parent, j⟩ := first
      rw [contestsFrom, List.getElem?_cons_succ, List.getElem?_cons_succ, ih]
      refine congrArg (Option.map · rest[i]?) (funext fun (other, k) => ?_)
      have before : (k ∈ j :: gone ∨ k ∈ (rest.take i).map (·.2)) ↔
          (k ∈ gone ∨ k ∈ (((parent, j) :: rest).take (i + 1)).map (·.2)) := by
        rw [List.take_succ_cons, List.map_cons, List.mem_cons, List.mem_cons, or_comm (a := k = j),
          or_assoc]
      simp only [before, Nat.add_right_comm place 1 i, Nat.add_assoc]

end Places

/-- The contests for the places of some parents. -/
def contests (parents children : List Individual) (matching : List Nat) : List Contest :=
  contestsFrom children 0 [] (parents.zip matching)

section Contests

variable {parents children : List Individual} {matching : List Nat}

theorem selectSurvivors_eq_each (parents children : List Individual) :
    selectSurvivors parents children =
      each Contest.settle (contests parents children (assignMatrix (distances parents children))) :=
  fillPlaces_eq_each children (fun j => by simp) 0

/-- The child that is matched to a place. -/
def matched (children : List Individual) (matching : List Nat) (i : Nat) : Option Individual :=
  matching[i]?.bind (children[·]?)

/-- The child that is matched to a place, if it has not been matched to an earlier one. -/
def challenger (children : List Individual) (matching : List Nat) (i : Nat) : Option Individual :=
  matching[i]?.bind fun j => if j ∈ matching.take i then none else children[j]?

theorem exists_of_challenger {i : Nat} {child : Individual}
    (challenges : challenger children matching i = some child) :
    ∃ j, matching[i]? = some j ∧ j ∉ matching.take i ∧ children[j]? = some child := by
  obtain ⟨j, named, found⟩ := Option.bind_eq_some_iff.mp challenges
  by_cases gone : j ∈ matching.take i
  · rw [if_pos gone] at found
    contradiction
  · rw [if_neg gone] at found
    exact ⟨j, named, gone, found⟩

theorem matched_of_challenger {i : Nat} {child : Individual}
    (challenges : challenger children matching i = some child) :
    matched children matching i = some child := by
  obtain ⟨j, named, -, found⟩ := exists_of_challenger challenges
  rw [matched, named]
  exact found

theorem not_challenger_of_earlier {i k : Nat} {child other : Individual} (earlier : i < k)
    (first : challenger children matching i = some child) (same : matching[i]? = matching[k]?) :
    challenger children matching k ≠ some other := by
  intro second
  obtain ⟨j, named, -, -⟩ := exists_of_challenger first
  obtain ⟨j', named', new, -⟩ := exists_of_challenger second
  obtain rfl : j = j' := Option.some.inj (named.symm.trans (same.trans named'))
  exact new (List.mem_of_getElem? ((List.getElem?_take_of_lt earlier).trans named))

/-- A child is matched once, so that it is there when its place comes up. -/
theorem challenger_of_nodup (once : matching.Nodup) (i : Nat) :
    challenger children matching i = matched children matching i := by
  refine Option.bind_congr fun j named => if_neg fun member => ?_
  obtain ⟨k, inside, found⟩ := List.mem_iff_getElem.mp member
  obtain ⟨below, same⟩ := List.getElem?_eq_some_iff.mp named
  rw [List.length_take] at inside
  rw [List.getElem_take, ← same] at found
  have equal := (once.getElem_inj_iff).mp found
  omega

theorem contests_places (children : List Individual) (complete : matching.length = parents.length) :
    (contests parents children matching).map (·.place) = List.range parents.length := by
  rw [contests, contestsFrom_places, List.length_zip, complete, Nat.min_self, List.range_eq_range']

theorem getElem?_contests (children : List Individual)
    (complete : matching.length = parents.length) (i : Nat) :
    (contests parents children matching)[i]? =
      parents[i]?.map (⟨i, ·, challenger children matching i⟩) := by
  have earlier : ((parents.zip matching).take i).map (·.2) = matching.take i := by
    rw [List.map_take, List.map_snd_zip (Nat.le_of_eq complete)]
  rw [contests, getElem?_contestsFrom, earlier, Nat.zero_add]
  by_cases inside : i < parents.length
  · have listed : i < matching.length := complete ▸ inside
    have both : (parents.zip matching)[i]? = some (parents[i], matching[i]) := by
      simp [inside, listed]
    rw [both, challenger, List.getElem?_eq_getElem inside, List.getElem?_eq_getElem listed]
    simp
  · have neither : (parents.zip matching)[i]? = none :=
      List.getElem?_eq_none (by rw [List.length_zip]; omega)
    rw [neither, List.getElem?_eq_none (Nat.le_of_not_lt inside)]
    rfl

/-- The fitness values of the parent in a place and the child matched to it are equal. -/
def tiedAt (parents children : List Individual) (matching : List Nat) (i : Nat) : Bool :=
  match parents[i]?, matched children matching i with
  | some parent, some child => child.fitnessOrWorst.value == parent.fitnessOrWorst.value
  | _, _ => false

/-- How the places of some parents are filled, where the children matched to the places in `won`
take them. -/
structure Filled (parents children : List Individual) (matching : List Nat) (won : Nat → Prop)
    (survivors : List Individual) : Prop where
  length : survivors.length = parents.length
  kept : ∀ i, ¬ won i → survivors[i]? = parents[i]?
  taken : ∀ i, won i → ∃ child, matched children matching i = some child ∧
    survivors[i]? = some child
  once : ∀ i k, won i → won k → matching[i]? = matching[k]? → i = k
  noLower : ∀ (i : Nat) (parent survivor : Individual), parents[i]? = some parent →
    survivors[i]? = some survivor →
      ¬ survivor.fitnessOrWorst.value < parent.fitnessOrWorst.value

/-- The place goes to the child that contests it. -/
def WonAt (cs : List Contest) (coins : List (Nat × Bool)) (i : Nat) : Prop :=
  ∃ c, cs[i]? = some c ∧ c.Won coins

variable (children) (complete : matching.length = parents.length) (coins : List (Nat × Bool))

include complete

theorem wonAt_contests_iff (i : Nat) :
    WonAt (contests parents children matching) coins i ↔ ∃ parent,
      parents[i]? = some parent ∧
        (Contest.mk i parent (challenger children matching i)).Won coins := by
  rw [WonAt, getElem?_contests children complete]
  simp

theorem survivors_filled :
    Filled parents children matching (WonAt (contests parents children matching) coins)
      ((contests parents children matching).map (·.survivor coins)) := by
  have places := fun i => getElem?_contests children complete i
  have won_iff := wonAt_contests_iff children complete coins
  constructor
  · have length := congrArg List.length (contests_places children complete)
    simpa using length
  · intro i lost
    rw [List.getElem?_map, places]
    cases found : parents[i]? with
    | none => rfl
    | some parent =>
      exact congrArg some (Contest.survivor_of_not_won fun won =>
        lost ((won_iff i).mpr ⟨parent, found, won⟩))
  · intro i won
    obtain ⟨parent, found, wins⟩ := (won_iff i).mp won
    refine ⟨_, matched_of_challenger (Contest.survivor_of_won wins), ?_⟩
    rw [List.getElem?_map, places, found]
    rfl
  · intro i k won won' same
    obtain ⟨_, _, child, challenges, _⟩ := (won_iff i).mp won
    obtain ⟨_, _, other, challenges', _⟩ := (won_iff k).mp won'
    rcases Nat.lt_trichotomy i k with earlier | rfl | later
    · exact absurd challenges' (not_challenger_of_earlier earlier challenges same)
    · rfl
    · exact absurd challenges (not_challenger_of_earlier later challenges' same.symm)
  · intro i parent survivor found left
    rw [List.getElem?_map, places, found] at left
    obtain rfl := Option.some.inj left
    exact Contest.survivor_not_lt _ coins

/-- Where no child is matched twice, a place is tied with the child matched to it. -/
theorem tieBreaks_contests (once : matching.Nodup) :
    tieBreaks (contests parents children matching) =
      flips ((List.range parents.length).filter (tiedAt parents children matching)) := by
  rw [tieBreaks, ← contests_places children complete, List.filter_map]
  refine congrArg (fun cs : List Contest => flips (cs.map (·.place))) ?_
  refine List.filter_congr fun c member => ?_
  obtain ⟨i, met⟩ := List.mem_iff_getElem?.mp member
  rw [getElem?_contests children complete] at met
  obtain ⟨parent, found, rfl⟩ := Option.map_eq_some_iff.mp met
  rw [Function.comp_apply, Contest.tied, tiedAt, found, challenger_of_nodup once]
  cases matched children matching i <;> rfl

end Contests

theorem exists_matched {parents children : List Individual} {matching : List Nat}
    (even : children.length = parents.length) (perm : matching.Perm (List.range parents.length))
    {i : Nat} (inside : i < parents.length) :
    ∃ child, matched children matching i = some child := by
  have listed : i < matching.length := by rw [perm.length_eq, List.length_range]; exact inside
  have below : matching[i] < children.length := by
    rw [even]
    exact List.mem_range.mp (perm.mem_iff.mp (List.getElem_mem listed))
  refine ⟨children[matching[i]], ?_⟩
  rw [matched, List.getElem?_eq_getElem listed, Option.bind_some, List.getElem?_eq_getElem below]

/-- The place of a parent goes to it or to the child that is matched to it, no child goes to two
places, and no place ends with a fitness below its parent's. If the matching is a permutation, the
child takes the place exactly if its fitness is greater, or if it is equal and the coin says so,
which is flipped once for each tied place, in order, and for no other. -/
theorem selectSurvivors_filled {parents children : List Individual}
    (even : children.length = parents.length) (random : Stream) :
    let matching := assignMatrix (distances parents children)
    let survivors := selectSurvivors parents children random
    let tied := (List.range parents.length).filter (tiedAt parents children matching)
    let coins := flips tied random
    ∃ won, Filled parents children matching won survivors.1 ∧
      (matching.Perm (List.range parents.length) → survivors.2 = coins.2 ∧
        ∀ (i : Nat) (parent : Individual), parents[i]? = some parent →
          ∃ child, matched children matching i = some child ∧
            (won i ↔ parent.fitnessOrWorst.value < child.fitnessOrWorst.value ∨
              child.fitnessOrWorst.value == parent.fitnessOrWorst.value ∧
                (i, true) ∈ coins.1)) := by
  intro matching survivors tied coins
  have complete : matching.length = parents.length := by
    rw [length_assignMatrix, distances, List.length_map]
  have apart : ((contests parents children matching).map (·.place)).Nodup :=
    contests_places children complete ▸ List.nodup_range
  have settled : survivors = _ :=
    (congrFun (selectSurvivors_eq_each parents children) random).trans (each_settle apart random)
  refine ⟨WonAt (contests parents children matching)
    (tieBreaks (contests parents children matching) random).1, ?_, fun perm => ?_⟩
  · rw [settled]
    exact survivors_filled children complete _
  · have once : matching.Nodup := perm.nodup_iff.mpr List.nodup_range
    rw [settled, tieBreaks_contests children complete once]
    refine ⟨rfl, fun i parent found => ?_⟩
    obtain ⟨child, met⟩ := exists_matched even perm (List.getElem?_eq_some_iff.mp found).1
    refine ⟨child, met, ?_⟩
    have challenges : challenger children matching i = some child :=
      (challenger_of_nodup once i).trans met
    rw [wonAt_contests_iff children complete, found, challenges]
    simp [Contest.Won, Contest.tied, coins, tied]

/-- An individual of which nothing is known but the fitness. -/
def rated (fitness : Float32) : Individual :=
  { Individual.ofProgram default with fitness := some (.ofFloat fitness) }

def evenParents : List Individual := [rated 1, rated 1]

def betterChildren : List Individual := [rated 5, rated 1]

theorem assign_betterChildren : assignMatrix (distances evenParents betterChildren) = [0, 1] := by
  decide +kernel

/-- A greater child takes the first place, and a coin decides the second. -/
theorem evenParents_filled :
    ∃ won, Filled evenParents betterChildren [0, 1] won
        (selectSurvivors evenParents betterChildren (.ofSeed 0)).1 ∧
      (selectSurvivors evenParents betterChildren (.ofSeed 0)).2 = (flips [1] (.ofSeed 0)).2 ∧
        won 0 ∧ (won 1 ↔ (1, true) ∈ (flips [1] (.ofSeed 0)).1) := by
  have ties : (List.range evenParents.length).filter (tiedAt evenParents betterChildren [0, 1]) =
      [1] := by decide +kernel
  have even : betterChildren.length = evenParents.length := by decide
  have settled := selectSurvivors_filled even (.ofSeed 0)
  simp only [assign_betterChildren, ties] at settled
  obtain ⟨won, filled, decided⟩ := settled
  obtain ⟨left, places⟩ := decided (List.Perm.refl _)
  obtain ⟨first, met, wins⟩ := places 0 (rated 1) rfl
  obtain ⟨second, met', wins'⟩ := places 1 (rated 1) rfl
  obtain rfl : rated 5 = first := Option.some.inj met
  obtain rfl : rated 1 = second := Option.some.inj met'
  have greater : (rated 1).fitnessOrWorst.value < (rated 5).fitnessOrWorst.value := by
    decide +kernel
  have notLess : ¬ (rated 1).fitnessOrWorst.value < (rated 1).fitnessOrWorst.value := by
    decide +kernel
  have equal : (rated 1).fitnessOrWorst.value == (rated 1).fitnessOrWorst.value := by
    decide +kernel
  refine ⟨won, filled, left, wins.mpr (.inl greater), ?_⟩
  rw [wins', or_iff_right notLess, and_iff_right equal]

end SwarmEvolution.Breeding
