import Mathlib.Data.List.Perm.Basic
import SwarmEvolution.Breeding.Crowding
import SwarmEvolution.Breeding.Operators
import SwarmEvolution.Proofs.Assignment.Paths
import SwarmEvolution.Proofs.Sampling.Bounds

/-! Groups of parents: drawing them splits the pool, so every index is in exactly one group, and
taking the parents out of their slots finds none gone and leaves none behind. The survivors of a
group are as many as its parents. -/
namespace SwarmEvolution

theorem length_assignMatrix (rows : List (List Float)) :
    (assignMatrix rows).length = rows.length := Assignment.length_columns ..

namespace Breeding

open Sampling Draw

/-- The last element takes the place of the one taken out, if that is not the last one itself. -/
theorem swapRemove_perm {pool : List Nat} {index : Nat} (inside : index < pool.length) :
    ((swapRemove pool index).1 :: (swapRemove pool index).2).Perm pool := by
  have nonempty : pool ≠ [] := List.ne_nil_of_length_pos (by omega)
  obtain ⟨others, last, rfl⟩ : ∃ others last, pool = others ++ [last] :=
    ⟨_, _, (List.dropLast_append_getLast nonempty).symm⟩
  simp only [swapRemove, List.getElem?_eq_getElem inside, List.getLast?_concat]
  by_cases final : index = others.length
  · subst final
    simpa using List.perm_append_singleton last others |>.symm
  · have before : index < others.length := by
      rw [List.length_append, List.length_singleton] at inside
      omega
    rw [List.set_append_left _ _ before, List.dropLast_concat, List.getElem_append_left before]
    calc
      (others[index] :: others.set index last).Perm
          (others[index] :: last :: others.eraseIdx index) :=
        (List.set_perm_cons_eraseIdx before last).cons _
      _ |>.Perm (last :: others[index] :: others.eraseIdx index) := .swap ..
      _ |>.Perm (last :: others) := (List.getElem_cons_eraseIdx_perm before).cons last
      _ |>.Perm (others ++ [last]) := (List.perm_append_singleton last others).symm

theorem drawGroup_perm (count : Nat) {pool : List Nat} (enough : count ≤ pool.length) :
    (drawGroup count pool).Always fun drawn =>
      drawn.1.length = count ∧ (drawn.1 ++ drawn.2).Perm pool := by
  induction count generalizing pool with
  | zero => exact always_pure ⟨rfl, .refl _⟩
  | succ count ih =>
    refine (below_lt (by omega)).bind fun index inside => ?_
    have one := swapRemove_perm inside
    dsimp only
    generalize swapRemove pool index = removed at one ⊢
    obtain ⟨taken, left⟩ := removed
    have fewer : left.length + 1 = pool.length := one.length_eq
    have remaining : count ≤ left.length := by omega
    refine (ih remaining).bind fun drawn split => always_pure ?_
    obtain ⟨length, whole⟩ := split
    exact ⟨congrArg (· + 1) length, (whole.cons taken).trans one⟩

/-- All groups but the last have `size` members; the last one may have fewer, but is not empty. -/
structure Grouped (size : Nat) (groups : List (List Nat)) : Prop where
  nonempty : ∀ group ∈ groups, group ≠ []
  atMost : ∀ group ∈ groups, group.length ≤ size
  full : ∀ group ∈ groups.dropLast, group.length = size

theorem grouped_nil (size : Nat) : Grouped size [] := ⟨by simp, by simp, by simp⟩

theorem Grouped.cons {size : Nat} {group : List Nat} {groups : List (List Nat)}
    (later : Grouped size groups) (some : group ≠ []) (atMost : group.length ≤ size)
    (full : groups ≠ [] → group.length = size) : Grouped size (group :: groups) := by
  refine ⟨List.forall_mem_cons.mpr ⟨some, later.nonempty⟩,
    List.forall_mem_cons.mpr ⟨atMost, later.atMost⟩, ?_⟩
  cases groups with
  | nil => simp
  | cons next rest => exact List.forall_mem_cons.mpr ⟨full (by simp), later.full⟩

/-- Every group takes at least one element, so the turns do not run out before the pool does. -/
theorem drawGroups_spec {size : Nat} (positive : 0 < size) (turns : Nat) {pool : List Nat}
    (enough : pool.length ≤ turns) :
    (drawGroups size turns pool).Always fun groups =>
      groups.flatten.Perm pool ∧ Grouped size groups := by
  induction turns generalizing pool with
  | zero =>
    obtain rfl := List.eq_nil_of_length_eq_zero (Nat.le_zero.mp enough)
    exact always_pure ⟨.refl _, grouped_nil size⟩
  | succ turns ih =>
    unfold drawGroups
    split
    case isTrue empty =>
      obtain rfl := List.isEmpty_iff.mp empty
      exact always_pure ⟨.refl _, grouped_nil size⟩
    case isFalse some =>
      have nonempty : 0 < pool.length := by
        rw [List.isEmpty_iff] at some
        exact List.length_pos_of_ne_nil some
      have drawable := drawGroup_perm (min size pool.length) (Nat.min_le_right ..)
      refine drawable.bind fun drawn split => ?_
      obtain ⟨group, left⟩ := drawn
      obtain ⟨length, whole⟩ := split
      have fewer : group.length + left.length = pool.length := by
        rw [← List.length_append]
        exact whole.length_eq
      have taken : group.length = min size pool.length := length
      have remaining : left.length ≤ turns := by omega
      refine (ih remaining).bind fun groups rest => always_pure ?_
      obtain ⟨perm, later⟩ := rest
      refine ⟨(perm.append_left group).trans whole,
        later.cons (List.ne_nil_of_length_pos (by omega)) (by omega) fun others => ?_⟩
      have more : left ≠ [] := by
        rintro rfl
        obtain ⟨next, among⟩ := List.exists_mem_of_ne_nil groups others
        exact later.nonempty next among (List.flatten_eq_nil_iff.mp perm.eq_nil next among)
      have more := List.length_pos_of_ne_nil more
      omega

theorem parentGroups_spec (population size : Nat) :
    (parentGroups population size).Always fun groups =>
      groups.flatten.Perm (List.range population) ∧ Grouped (max size 1) groups :=
  drawGroups_spec (Nat.lt_of_lt_of_le Nat.one_pos (Nat.le_max_right ..)) population
    (Nat.le_of_eq List.length_range)

theorem parentGroups_perm (population size : Nat) :
    (parentGroups population size).Always fun groups =>
      groups.flatten.Perm (List.range population) :=
  (parentGroups_spec population size).mono fun _ split => split.1

section Slots

/-- The slots of a population when the individuals with some indices have gone. -/
def slotsWithout (population : List Individual) (gone : List Nat) : List (Option Individual) :=
  population.mapIdx fun k i => if k ∈ gone then none else some i

variable {population : List Individual} {gone : List Nat}

theorem getElem?_slotsWithout (gone : List Nat) (k : Nat) :
    (slotsWithout population gone)[k]? =
      population[k]?.map fun i => if k ∈ gone then none else some i :=
  List.getElem?_mapIdx

theorem slotsWithout_nil : slotsWithout population [] = population.map some := by
  refine List.ext_getElem? fun k => ?_
  rw [getElem?_slotsWithout, List.getElem?_map]
  simp

theorem slotsWithout_perm {others : List Nat} (same : gone.Perm others) :
    slotsWithout population gone = slotsWithout population others := by
  unfold slotsWithout
  simp only [same.mem_iff]

theorem set_slotsWithout (i : Nat) :
    (slotsWithout population gone).set i none = slotsWithout population (i :: gone) := by
  refine List.ext_getElem? fun k => ?_
  rw [List.getElem?_set, getElem?_slotsWithout, getElem?_slotsWithout, slotsWithout,
    List.length_mapIdx]
  by_cases same : i = k
  · subst same
    by_cases inside : i < population.length
    · simp [inside]
    · simp [inside]
  · simp [same, Ne.symm same]

theorem slotsWithout_all (all : gone.Perm (List.range population.length)) :
    slotsWithout population gone = List.replicate population.length none := by
  refine List.ext_getElem? fun k => ?_
  rw [getElem?_slotsWithout, List.getElem?_replicate]
  by_cases inside : k < population.length
  · have among : k ∈ gone := all.mem_iff.mpr (List.mem_range.mpr inside)
    simp [inside, among]
  · simp [inside]

theorem takeOut_slotsWithout {indices : List Nat} (apart : (indices ++ gone).Nodup)
    (inside : ∀ i ∈ indices, i < population.length) :
    takeOut indices (slotsWithout population gone) =
      (indices.map (pick population), slotsWithout population (indices ++ gone)) := by
  induction indices generalizing gone with
  | nil => rfl
  | cons i rest ih =>
    obtain ⟨first, others⟩ := List.forall_mem_cons.mp inside
    have moved : (rest ++ i :: gone).Perm (i :: rest ++ gone) := List.perm_middle
    have present : i ∉ gone := fun member =>
      (List.nodup_cons.mp apart).1 (List.mem_append_right rest member)
    have found : (slotsWithout population gone)[i]? = some (some (pick population i)) := by
      rw [getElem?_slotsWithout, List.getElem?_eq_getElem first, Option.map_some, if_neg present,
        pick, List.getElem?_eq_getElem first, Option.getD_some]
    rw [takeOut, set_slotsWithout, ih (moved.nodup_iff.mpr apart) others, found,
      slotsWithout_perm moved]
    rfl

theorem takeGroups_slotsWithout {groups : List (List Nat)} (apart : (groups.flatten ++ gone).Nodup)
    (inside : ∀ i ∈ groups.flatten, i < population.length) :
    takeGroups groups (slotsWithout population gone) =
      (groups.map (·.map (pick population)), slotsWithout population (groups.flatten ++ gone)) := by
  induction groups generalizing gone with
  | nil => rfl
  | cons group rest ih =>
    rw [List.flatten_cons] at apart inside
    obtain ⟨first, others⟩ := List.forall_mem_append.mp inside
    have moved : (rest.flatten ++ (group ++ gone)).Perm (group ++ rest.flatten ++ gone) := by
      rw [← List.append_assoc]
      exact List.perm_append_comm.append_right gone
    have later := moved.nodup_iff.mpr apart
    rw [takeGroups, takeOut_slotsWithout (List.nodup_append'.mp later).2.1 first]
    dsimp only
    rw [ih later others, slotsWithout_perm moved]
    rfl

/-- Groups that share out a population find every individual in its slot and leave none. -/
theorem takeGroups_whole {groups : List (List Nat)}
    (shared : groups.flatten.Perm (List.range population.length)) :
    takeGroups groups (population.map some) =
      (groups.map (·.map (pick population)), List.replicate population.length none) := by
  have apart : (groups.flatten ++ []).Nodup := by
    rw [List.append_nil]
    exact shared.nodup_iff.mpr List.nodup_range
  have inside : ∀ i ∈ groups.flatten, i < population.length := fun i member =>
    List.mem_range.mp (shared.mem_iff.mp member)
  rw [← slotsWithout_nil, takeGroups_slotsWithout apart inside, List.append_nil,
    slotsWithout_all shared]

end Slots

theorem fillPlaces_length (places : List (Individual × Nat)) (children : List (Option Individual)) :
    (fillPlaces places children).Always fun survivors => survivors.length = places.length := by
  induction places generalizing children with
  | nil => exact always_pure rfl
  | cons place places ih =>
    unfold fillPlaces
    split
    · exact always_bind fun _ => (ih _).bind fun survivors length =>
        always_pure (congrArg (· + 1) length)
    · exact (ih _).bind fun survivors length => always_pure (congrArg (· + 1) length)

theorem selectSurvivors_length (parents children : List Individual) :
    (selectSurvivors parents children).Always fun survivors =>
      survivors.length = parents.length := by
  have places : (parents.zip (assignMatrix (distances parents children))).length =
      parents.length := by
    rw [List.length_zip, length_assignMatrix, distances, List.length_map, Nat.min_self]
  have filled := fillPlaces_length (parents.zip (assignMatrix (distances parents children)))
    (children.map some)
  rw [places] at filled
  exact filled

end Breeding
end SwarmEvolution
