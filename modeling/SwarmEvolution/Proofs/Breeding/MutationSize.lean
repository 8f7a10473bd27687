import Mathlib
import SwarmEvolution.Breeding.Operators
import SwarmEvolution.Proofs.Sampling.Bounds

/-! The sizes that fair mutations ask for. They lie within reach of the old size, and all sums on
the way to them fit their words, exactly if the reach is below `2 ^ 62` and takes the old size no
further than the words go. A larger reach leaves nothing to draw from, and there is no size beyond
the words. -/
namespace SwarmEvolution.Breeding

open Sampling Draw

/-- A number that a signed word of 64 bits can hold. -/
def InWord (n : Int) : Prop := -2 ^ 63 ≤ n ∧ n < 2 ^ 63

/-- A size within reach of an old one, or one where the reach goes below it. -/
structure Reached (oldSize : Nat) (reach : Int) (size : Nat) : Prop where
  positive : 1 ≤ size
  near : oldSize - reach ≤ size ∧ size < oldSize + reach ∨ size = 1 ∧ oldSize - reach < 1

/-- There are offsets to draw from; their number, each of them and the old size moved by it fit a
word. -/
structure Computable (oldSize : Nat) (reach : Int) : Prop where
  offered : 0 < offsetCount reach
  counted : InWord (2 * reach)
  moved : ∀ offset, -reach ≤ offset → offset < reach → InWord offset ∧ InWord (oldSize + offset)

section Words

variable {n : Int}

theorem bmod_of_inWord (fits : InWord n) : n.bmod (2 ^ 64) = n := by
  obtain ⟨low, high⟩ := fits
  exact Int.bmod_eq_of_le (by omega) (by omega)

/-- What is too large for a word by less than its range comes around once. -/
theorem bmod_of_beyond (beyond : 2 ^ 63 ≤ n) (once : n < 2 ^ 63 + 2 ^ 64) :
    n.bmod (2 ^ 64) = n - 2 ^ 64 := by
  rw [← bmod_of_inWord (n := n - 2 ^ 64) ⟨by omega, by omega⟩]
  exact (Int.sub_bmod_right n (2 ^ 64)).symm

theorem toInt_offsetCount (reach : Int) :
    (offsetCount reach).toInt = (2 * reach).bmod (2 ^ 64) := by
  unfold offsetCount
  rw [Int64.toInt_mul, Int64.toInt_ofInt]
  exact Int.mul_bmod_bmod

theorem fitsInt64_iff : Number.fitsInt64 n ↔ InWord n := by
  have least : Int64.minValue.toInt = -2 ^ 63 := rfl
  have greatest : Int64.maxValue.toInt = 2 ^ 63 - 1 := rfl
  rw [Number.fitsInt64, Bool.and_eq_true, decide_eq_true_iff, decide_eq_true_iff, least, greatest,
    InWord]
  omega

theorem movedSize?_eq_some_iff {oldSize : Nat} {offset size : Int} :
    movedSize? oldSize offset = some size ↔
      InWord size ∧ size = (oldSize : Int).bmod (2 ^ 64) + offset := by
  have word : (Int64.ofNat oldSize).toInt = (oldSize : Int).bmod (2 ^ 64) := Int64.toInt_ofNat'
  rw [movedSize?, word]
  split
  case isTrue fits =>
    rw [Option.some.injEq]
    constructor
    · rintro rfl
      exact ⟨fitsInt64_iff.mp fits, rfl⟩
    · exact fun same => same.2.symm
  case isFalse beyond =>
    refine iff_of_false nofun ?_
    rintro ⟨fits, same⟩
    exact beyond (fitsInt64_iff.mpr (same ▸ fits))

end Words

section Sizes

variable {s : Settings.Evolution} {oldSize : Nat} {reach : Int}

theorem truncate_inWord (x : Float32) : InWord (Number.truncate x) := by
  have range : Nat.pow 2 63 = 9223372036854775808 := rfl
  unfold InWord Number.truncate
  rw [range]
  split <;> omega

theorem mutationReach_bounds (range : Float32) (oldSize : Nat) :
    1 ≤ mutationReach range oldSize ∧ mutationReach range oldSize < 2 ^ 63 := by
  obtain ⟨low, high⟩ := truncate_inWord (range * Float32.ofNat oldSize)
  unfold mutationReach
  omega

theorem computable_iff (oldSize : Nat) (positive : 1 ≤ reach) (word : reach < 2 ^ 63) :
    Computable oldSize reach ↔ reach < 2 ^ 62 ∧ oldSize + reach ≤ 2 ^ 63 := by
  constructor
  · rintro ⟨-, counted, moved⟩
    have largest := (moved (reach - 1) (by omega) (by omega)).2
    unfold InWord at counted largest
    omega
  · rintro ⟨near, inside⟩
    have counted : InWord (2 * reach) := ⟨by omega, by omega⟩
    refine ⟨?_, counted, fun offset low high => ⟨⟨by omega, by omega⟩, by omega, by omega⟩⟩
    rw [Int64.lt_iff_toInt_lt, toInt_offsetCount, bmod_of_inWord counted]
    change 0 < 2 * reach
    omega

section Fair

variable (fair : s.fairMutation) (reached : mutationReach s.fairMutationRange oldSize = reach)

include fair reached

theorem mutationSize?_eq_none (far : 2 ^ 62 ≤ reach) (random : Stream) :
    (mutationSize? s oldSize random).1 = none := by
  have word := reached ▸ mutationReach_bounds s.fairMutationRange oldSize
  have around : offsetCount reach ≤ 0 := by
    rw [Int64.le_iff_toInt_le, toInt_offsetCount, bmod_of_beyond (by omega) (by omega)]
    change 2 * reach - 2 ^ 64 ≤ 0
    omega
  unfold mutationSize?
  rw [if_pos fair]
  dsimp only
  rw [reached, if_pos around]
  rfl

theorem mutationSize?_eq (near : reach < 2 ^ 62) (random : Stream) :
    (mutationSize? s oldSize random).1 =
      (movedSize? oldSize ((below (2 * reach).toNat random).1 - reach)).map fun size =>
        (max size 1).toNat := by
  have positive := (reached ▸ mutationReach_bounds s.fairMutationRange oldSize).1
  have count : (offsetCount reach).toInt = 2 * reach := by
    rw [toInt_offsetCount, bmod_of_inWord ⟨by omega, by omega⟩]
  have offered : ¬ offsetCount reach ≤ 0 := by
    rw [Int64.le_iff_toInt_le, count]
    change ¬ 2 * reach ≤ 0
    omega
  unfold mutationSize?
  rw [if_pos fair]
  dsimp only
  rw [reached, if_neg offered, count, bind_apply, pure_apply, between_zero]

theorem mutationSize?_reached (near : reach < 2 ^ 62) (inside : oldSize + reach ≤ 2 ^ 63) :
    (mutationSize? s oldSize).Always fun size? => ∃ size, size? = some size ∧
      Reached oldSize reach size := by
  intro random
  have positive := (reached ▸ mutationReach_bounds s.fairMutationRange oldSize).1
  have drawn : (below (2 * reach).toNat random).1 < (2 * reach).toNat :=
    below_lt (by omega) random
  have moved : movedSize? oldSize ((below (2 * reach).toNat random).1 - reach) =
      some (oldSize + ((below (2 * reach).toNat random).1 - reach)) := by
    refine movedSize?_eq_some_iff.mpr ⟨⟨by omega, by omega⟩, ?_⟩
    rw [bmod_of_inWord ⟨by omega, by omega⟩]
  rw [mutationSize?_eq fair reached near random, moved, Option.map_some]
  exact ⟨_, rfl, by omega, by omega⟩

/-- The largest offset is drawn from some stream. It takes a size that is a word too far for one,
and does not bring back a size that has come around to a negative one. -/
theorem exists_not_reached (word : oldSize < 2 ^ 64) (near : reach < 2 ^ 62)
    (beyond : 2 ^ 63 < oldSize + reach) :
    ∃ random, ∀ size, (mutationSize? s oldSize random).1 = some size →
      ¬ Reached oldSize reach size := by
  have positive := (reached ▸ mutationReach_bounds s.fairMutationRange oldSize).1
  have last : (2 * reach - 1).toNat < (2 * reach).toNat := by omega
  obtain ⟨random, drawn⟩ := exists_below last (by omega)
  refine ⟨random, fun size made => ?_⟩
  rw [mutationSize?_eq fair reached near random, drawn] at made
  obtain ⟨moved, fits, rfl⟩ := Option.map_eq_some_iff.mp made
  obtain ⟨⟨low, high⟩, same⟩ := movedSize?_eq_some_iff.mp fits
  by_cases small : (oldSize : Int) < 2 ^ 63
  · rw [bmod_of_inWord ⟨by omega, small⟩] at same
    omega
  · rw [bmod_of_beyond (by omega) (by omega)] at same
    rintro ⟨-, within | first⟩
    · omega
    · omega

end Fair

/-- Fair mutations are computed without leaving the words, and ask for a size within reach whatever
stream they draw from, exactly if the reach is below `2 ^ 62` and takes the old size no further than
the words go. -/
theorem mutationSize_safe_iff (fair : s.fairMutation) (word : oldSize < 2 ^ 64) :
    let reach := mutationReach s.fairMutationRange oldSize
    (Computable oldSize reach ↔ reach < 2 ^ 62 ∧ oldSize + reach ≤ 2 ^ 63) ∧
    ((mutationSize? s oldSize).Always
        (fun size? => ∃ size, size? = some size ∧ Reached oldSize reach size) ↔
      reach < 2 ^ 62 ∧ oldSize + reach ≤ 2 ^ 63) := by
  intro reach
  obtain ⟨positive, last⟩ := mutationReach_bounds s.fairMutationRange oldSize
  refine ⟨computable_iff oldSize positive last, fun always => ?_, fun ⟨near, inside⟩ => ?_⟩
  · by_contra far
    by_cases near : reach < 2 ^ 62
    · obtain ⟨random, missed⟩ := exists_not_reached fair rfl word near (by omega)
      obtain ⟨size, drawn, reached⟩ := always random
      exact missed size drawn reached
    · obtain ⟨size, drawn, -⟩ := always (Stream.ofSeed 0)
      rw [mutationSize?_eq_none fair rfl (Int.not_lt.mp near)] at drawn
      contradiction
  · exact mutationSize?_reached fair rfl near inside

/-- The usual share of a subtree of ten points reaches three points up and down. -/
theorem usualRange_safe :
    let s : Settings.Evolution := {}
    s.fairMutation ∧ mutationReach s.fairMutationRange 10 = 3 ∧ Computable 10 3 ∧
      (mutationSize? s 10).Always fun size? => ∃ size, size? = some size ∧ Reached 10 3 size := by
  intro s
  have reach : mutationReach s.fairMutationRange 10 = 3 := by decide
  obtain ⟨computable, always⟩ := mutationSize_safe_iff (s := s) rfl (show 10 < 2 ^ 64 by decide)
  rw [reach] at computable always
  exact ⟨rfl, reach, computable.mpr (by decide), always.mpr (by decide)⟩

/-- Settings under which a mutation may change a subtree by `10 ^ 30` times its size. -/
def vastRange : Settings.Evolution := { fairMutationRange := Float32.ofBits 0x7149f2ca }

/-- Such settings are accepted, but leave no offsets to draw from. -/
theorem vastRange_without_size :
    vastRange.validate = .ok () ∧ vastRange.fairMutation ∧
      ¬ Computable 5 (mutationReach vastRange.fairMutationRange 5) ∧
        ∀ random, (mutationSize? vastRange 5 random).1 = none := by
  have reach : mutationReach vastRange.fairMutationRange 5 = 2 ^ 63 - 1 := by decide
  refine ⟨rfl, rfl, ?_, mutationSize?_eq_none rfl reach (by decide)⟩
  rw [reach]
  exact fun computable => absurd computable.counted.2 (by decide)

end Sizes
end SwarmEvolution.Breeding
