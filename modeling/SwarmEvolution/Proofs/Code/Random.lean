import Mathlib
import SwarmEvolution.Proofs.Code.Edits
import SwarmEvolution.Proofs.Code.Size
import SwarmEvolution.Proofs.Sampling.Bounds
import SwarmEvolution.Vocabulary

/-! Random code. The parts that a size is split into add up to it, so code has the size that it is
asked for, and a random program is within the largest size or consists of one atom. Its lists have
items, and its atoms fill slots of the vocabulary. -/
namespace SwarmEvolution

/-- The slot that an atom can fill. -/
def Atom.slot : Atom → Slot
  | .instruction i => .instruction i
  | .integer _ => .integerConstant
  | .float _ => .floatConstant
  | .boolean _ => .booleanConstant

namespace Vocabulary

open Sampling Draw

variable (v : Vocabulary)

theorem decompose_sum {number : Nat} (positive : 0 < number) (parts : Nat) :
    (decompose number parts).Always fun ns => ns.sum = number ∧ ∀ n ∈ ns, 0 < n := by
  have whole {number : Nat} (positive : 0 < number) :
      [number].sum = number ∧ ∀ n ∈ [number], 0 < n := by simp [positive]
  fun_induction decompose number parts with
  | case1 | case2 | case3 => exact always_pure (whole positive)
  | case4 number parts several ih =>
    refine (below_lt positive).bind fun drawn below => ?_
    dsimp only
    split
    · exact always_pure (whole positive)
    · refine (ih _ (by omega)).bind fun rest divided => always_pure ?_
      obtain ⟨sum, all⟩ := divided
      refine ⟨?_, List.forall_mem_cons.mpr ⟨by omega, all⟩⟩
      rw [List.sum_cons, sum]
      omega

theorem decompose_length (number parts : Nat) :
    (decompose number parts).Always fun ns => 1 ≤ ns.length ∧ ns.length ≤ max parts 1 := by
  fun_induction decompose number parts with
  | case1 | case2 | case3 => exact always_pure ⟨Nat.le_refl 1, Nat.le_max_right ..⟩
  | case4 number parts several ih =>
    refine always_bind fun drawn => ?_
    dsimp only
    split
    · exact always_pure ⟨Nat.le_refl 1, Nat.le_max_right ..⟩
    · refine (ih _).bind fun rest counted => always_pure ?_
      rw [List.length_cons]
      omega

theorem randomAtom_points : v.randomAtom.Always (·.points = 1) :=
  always_bind fun _ => always_bind fun _ => always_pure rfl

theorem pointsOfAll_of_parts {parts : List Nat} {cs : List Code} (positive : ∀ n ∈ parts, 0 < n)
    (sizes : List.Forall₂ (fun n c => Code.points c = max n 1) parts cs) :
    Code.pointsOfAll cs = parts.sum := by
  induction sizes with
  | nil => rfl
  | cons size _ ih =>
    obtain ⟨first, others⟩ := List.forall_mem_cons.mp positive
    rw [Code.pointsOfAll, List.sum_cons, size, ih others]
    omega

/-- The parts of a size are smaller than it, so the depth does not run out before the size does. -/
theorem codeWithin_points {depth size : Nat} (deep : size ≤ depth) :
    (v.codeWithin depth size).Always (·.points = max size 1) := by
  induction depth generalizing size with
  | zero => exact v.randomAtom_points.mono fun c one => by omega
  | succ depth ih =>
    unfold codeWithin
    split
    · exact v.randomAtom_points.mono fun c one => by omega
    · refine (decompose_sum (by omega) (size - 1)).bind fun parts split => ?_
      obtain ⟨sum, positive⟩ := split
      have each : (Draw.each (v.codeWithin depth) parts).Always
          (List.Forall₂ (fun n c => Code.points c = max n 1) parts) :=
        each_always fun n member => ih (by
          have part := List.le_sum_of_mem member
          omega)
      refine each.bind fun cs sizes => always_pure ?_
      rw [Code.points, pointsOfAll_of_parts positive sizes, sum]
      omega

theorem randomCode_points (size : Nat) : (v.randomCode size).Always (·.points = max size 1) :=
  v.codeWithin_points (Nat.le_refl size)

theorem randomProgram_points (maxSize : Nat) :
    (v.randomProgram maxSize).Always (·.points ≤ max maxSize 2) := by
  refine (below_lt (by omega)).bind fun drawn below => ?_
  refine (v.randomCode_points (1 + drawn)).bind fun c size => always_pure ?_
  have wrapped := Program.points_ofCode_le c
  omega

section Formed

/-- Code as a vocabulary can put it together: its atoms fill slots, and no list is empty. -/
inductive Formed : Code → Prop
  | atom {a : Atom} (known : a.slot ∈ v.slots) : Formed (.atom a)
  | list {items : List Code} (some : items ≠ []) (all : ∀ c ∈ items, Formed c) :
    Formed (.list items)

variable {v} {c : Code}

theorem Formed.preorder (formed : v.Formed c) : ∀ d ∈ c.preorder, v.Formed d := by
  induction formed with
  | atom known =>
    intro d mem
    rw [List.mem_singleton.mp mem]
    exact .atom known
  | list some all ih =>
    intro d mem
    rcases List.mem_cons.mp mem with rfl | below
    · exact .list some all
    · obtain ⟨item, inside, mem⟩ := Code.mem_preorderOfAll.mp below
      exact ih item inside d mem

theorem Formed.subtree?_ne (formed : v.Formed c) (index : Nat) :
    c.subtree? index ≠ some (.list []) := by
  intro found
  rw [Code.subtree?_eq] at found
  cases formed.preorder _ (List.mem_of_getElem? found) with
  | list some => exact some rfl

theorem Formed.slot_mem (formed : v.Formed c) : ∀ a ∈ c.atoms, a.slot ∈ v.slots := by
  intro a mem
  rw [Code.atoms_eq] at mem
  obtain ⟨d, point, same⟩ := List.mem_filterMap.mp mem
  cases formed.preorder d point with
  | atom known => exact Option.some.inj same ▸ known
  | list => contradiction

variable (v)

theorem fill_slot (slot : Slot) : (v.fill slot).Always (·.slot = slot) := by
  cases slot with
  | instruction => exact always_pure rfl
  | integerConstant | floatConstant | booleanConstant =>
    exact always_bind fun _ => always_pure rfl

theorem randomAtom_formed : v.randomAtom.Always v.Formed := by
  refine always_bind fun i => ?_
  have among : v.slots[i]?.getD (v.slots.head v.slots_ne_nil) ∈ v.slots := by
    cases found : v.slots[i]? with
    | none => exact List.head_mem v.slots_ne_nil
    | some slot => exact List.mem_of_getElem? found
  exact (v.fill_slot _).bind fun a filled => always_pure (.atom (filled ▸ among))

theorem codeWithin_formed (depth size : Nat) : (v.codeWithin depth size).Always v.Formed := by
  induction depth generalizing size with
  | zero => exact v.randomAtom_formed
  | succ depth ih =>
    unfold codeWithin
    split
    · exact v.randomAtom_formed
    · refine (decompose_length (size - 1) (size - 1)).bind fun parts counted => ?_
      have each : (Draw.each (v.codeWithin depth) parts).Always fun cs =>
          cs.length = parts.length ∧ ∀ c ∈ cs, v.Formed c := fun random =>
        ⟨each_length _ _ random, always_each (fun part _ => ih part) random⟩
      refine each.bind fun cs made => always_pure (.list ?_ made.2)
      exact List.ne_nil_of_length_pos (made.1 ▸ counted.1)

/-- Random code has as many points as asked for, no empty list, and atoms of the vocabulary alone. A
random program is a list within the largest size, or with one atom. The parts that a number is split
into are positive, no more than allowed, and add up to it. -/
theorem randomCode_as_asked :
    (∀ size, (v.randomCode size).Always fun c => c.points = max size 1 ∧
      (∀ index, c.subtree? index ≠ some (.list [])) ∧ ∀ a ∈ c.atoms, a.slot ∈ v.slots) ∧
    (∀ maxSize, (v.randomProgram maxSize).Always fun p =>
      p.toCode.isList ∧ p.points ≤ max maxSize 2) ∧
    ∀ number, 0 < number → ∀ parts, (decompose number parts).Always fun ns =>
      (1 ≤ ns.length ∧ ns.length ≤ max parts 1) ∧ (∀ n ∈ ns, 0 < n) ∧ ns.sum = number := by
  refine ⟨fun size random => ?_, fun maxSize random => ?_, fun number positive parts random => ?_⟩
  · have formed := v.codeWithin_formed size size random
    exact ⟨v.randomCode_points size random, formed.subtree?_ne, formed.slot_mem⟩
  · exact ⟨rfl, v.randomProgram_points maxSize random⟩
  · obtain ⟨sum, all⟩ := decompose_sum positive parts random
    exact ⟨decompose_length number parts random, all, sum⟩

/-- The vocabulary of truth values alone. -/
def truthValues : Vocabulary := ⟨{}, [.booleanConstant], List.cons_ne_nil _ _⟩

/-- Seven points that are drawn from it hold truth values alone, and three are split into one or
two parts. -/
theorem truthValues_random :
    (truthValues.randomCode 7).Always (fun c => c.points = 7 ∧
      (∀ index, c.subtree? index ≠ some (.list [])) ∧ ∀ a ∈ c.atoms, a.slot = .booleanConstant) ∧
    0 < 3 ∧ (decompose 3 2).Always fun ns =>
      (1 ≤ ns.length ∧ ns.length ≤ 2) ∧ (∀ n ∈ ns, 0 < n) ∧ ns.sum = 3 := by
  obtain ⟨code, -, split⟩ := truthValues.randomCode_as_asked
  refine ⟨fun random => ?_, by decide, split 3 (by decide) 2⟩
  obtain ⟨points, lists, atoms⟩ := code 7 random
  exact ⟨points, lists, fun a mem => List.mem_singleton.mp (atoms a mem)⟩

end Formed

end Vocabulary
end SwarmEvolution
