import Mathlib
import SwarmEvolution.Proofs.Sampling.Outcomes

/-! Numbers that are drawn below a range lie below it, whatever words the stream has, and each of
them is drawn from some stream. -/
namespace SwarmEvolution.Sampling.Draw

theorem pick_lt {width range : Nat} {draw : Draw Nat} (words : draw.Always (· < Nat.pow 2 width))
    (positive : 0 < range) (attempts : Nat) :
    (pick width draw range attempts).Always (· < range) := by
  induction attempts with
  | zero => exact always_pure positive
  | succ attempts ih =>
    refine words.bind fun word fits => ?_
    dsimp only
    split
    · refine always_pure (Nat.div_lt_of_lt_mul ?_)
      exact Nat.mul_lt_mul_of_pos_right fits positive
    · exact ih

theorem below_lt {range : Nat} (positive : 0 < range) : (below range).Always (· < range) :=
  pick_lt (always_bind fun word => always_pure word.toNat_lt) positive patience

theorem small_lt {range : Nat} (positive : 0 < range) : (small range).Always (· < range) :=
  pick_lt (always_bind fun word => always_pure word.toNat_lt) positive patience

theorem between_zero (count : Int) (random : Stream) :
    (between 0 count random).1 = (below count.toNat random).1 := by
  unfold between
  rw [Int.sub_zero]
  exact Int.zero_add _

/-- The stream that hands out two given words next. -/
def ofWords (low high : UInt32) : Stream where
  key := .replicate 8 0
  counter := 0
  block := (Vector.replicate 16 0 |>.set 0 low).set 1 high
  used := 0

theorem wide_ofWords (low high : UInt32) :
    (wide (ofWords low high)).1 = high.toUInt64 <<< 32 ||| low.toUInt64 := rfl

/-- Every word of 64 bits is drawn from some stream. -/
theorem exists_wide {n : Nat} (fits : n < 2 ^ 64) : ∃ random, (wide random).1.toNat = n := by
  have lower : n % 2 ^ 32 < 2 ^ 32 := Nat.mod_lt _ (by decide)
  have upper : n / 2 ^ 32 < 2 ^ 32 := by omega
  have shifted : (n / 2 ^ 32) <<< 32 < 2 ^ 64 := by
    rw [Nat.shiftLeft_eq]
    omega
  refine ⟨ofWords (UInt32.ofNat (n % 2 ^ 32)) (UInt32.ofNat (n / 2 ^ 32)), ?_⟩
  calc (wide (ofWords _ _)).1.toNat
      = (n / 2 ^ 32) <<< 32 % 2 ^ 64 ||| n % 2 ^ 32 := by
        rw [wide_ofWords, UInt64.toNat_or, UInt64.toNat_shiftLeft, UInt32.toNat_toUInt64,
          UInt32.toNat_toUInt64, UInt32.toNat_ofNat_of_lt' lower, UInt32.toNat_ofNat_of_lt' upper]
        rfl
    _ = (n / 2 ^ 32) <<< 32 + n % 2 ^ 32 := by
        rw [Nat.mod_eq_of_lt shifted, Nat.shiftLeft_add_eq_or_of_lt lower]
    _ = n := by
        rw [Nat.shiftLeft_eq]
        omega

theorem pick_of_accepted {width range attempts : Nat} (draw : Draw Nat) {random : Stream}
    (accepted : (draw random).1 * range % Nat.pow 2 width ≤
      range * Nat.pow 2 (width - 1 - range.log2) - 1) :
    (pick width draw range (attempts + 1) random).1 =
      (draw random).1 * range / Nat.pow 2 width := by
  rw [pick, bind_apply]
  rw [if_pos accepted, pure_apply]

section Picks

variable {width range n : Nat}

/-- Every number below a range is picked from some stream: the least word whose product with the
range has the number in its high half is not refused. -/
theorem exists_pick (draw : Draw Nat) (words : ∀ k < 2 ^ width, ∃ random, (draw random).1 = k)
    (inside : n < range) (fits : range ≤ 2 ^ width) (attempts : Nat) :
    ∃ random, (pick width draw range (attempts + 1) random).1 = n := by
  have positive : 0 < range := Nat.zero_lt_of_lt inside
  have rest := Nat.div_add_mod (2 ^ width * n + (range - 1)) range
  have small := Nat.mod_lt (2 ^ width * n + (range - 1)) positive
  have below : 2 ^ width * (n + 1) ≤ 2 ^ width * range := Nat.mul_le_mul_left _ inside
  rw [Nat.mul_add, Nat.mul_one, Nat.mul_comm _ range] at below
  have word : (2 ^ width * n + (range - 1)) / range < 2 ^ width :=
    Nat.div_lt_of_lt_mul (by omega)
  obtain ⟨random, drawn⟩ := words _ word
  rw [← drawn, Nat.mul_comm range] at rest
  obtain ⟨low, product, least⟩ : ∃ low, (draw random).1 * range = 2 ^ width * n + low ∧
      low < range := ⟨range - 1 - (2 ^ width * n + (range - 1)) % range, by omega, by omega⟩
  have zone : range * 1 ≤ range * 2 ^ (width - 1 - range.log2) :=
    Nat.mul_le_mul_left _ (Nat.two_pow_pos _)
  have within : low < 2 ^ width := Nat.lt_of_lt_of_le least fits
  refine ⟨random, (pick_of_accepted draw ?_).trans ?_⟩
  · rw [product]
    change (2 ^ width * n + low) % 2 ^ width ≤ range * 2 ^ (width - 1 - range.log2) - 1
    rw [Nat.mul_add_mod, Nat.mod_eq_of_lt within]
    omega
  · rw [product]
    change (2 ^ width * n + low) / 2 ^ width = n
    rw [Nat.mul_add_div (Nat.two_pow_pos width), Nat.div_eq_of_lt within, Nat.add_zero]

theorem exists_below (inside : n < range) (fits : range ≤ 2 ^ 64) :
    ∃ random, (below range random).1 = n :=
  exists_pick (return (← wide).toNat) (fun _ => exists_wide) inside fits _

theorem exists_small (inside : n < range) (fits : range ≤ 2 ^ 32) :
    ∃ random, (small range random).1 = n :=
  exists_pick (return (← word).toNat)
    (fun k fits => ⟨ofWords (UInt32.ofNat k) 0, UInt32.toNat_ofNat_of_lt' fits⟩) inside fits _

end Picks

end SwarmEvolution.Sampling.Draw
