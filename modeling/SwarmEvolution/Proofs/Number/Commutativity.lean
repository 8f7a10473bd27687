import Mathlib
import SwarmEvolution.Number.Single

/-! Sums and products do not depend on the order of their two operands, also where they are
infinite, zeros of either sign or no numbers. A difference keeps its size, and so its square. -/
namespace SwarmEvolution.Number

open Float.Model

theorem unpacked_add_comm (f : Float.Model.Format) (x y : UnpackedFloat) :
    UnpackedFloat.add f x y = UnpackedFloat.add f y x := by
  cases x with
  | notANumber => cases y <;> rfl
  | infinity s =>
    cases y with
    | infinity t => cases s <;> cases t <;> rfl
    | _ => rfl
  | zero s =>
    cases y with
    | zero t => cases s <;> cases t <;> rfl
    | _ => rfl
  | finite s m e positive =>
    cases y with
    | finite t m' e' positive' =>
      simp only [UnpackedFloat.add, Int.min_comm e e', Int.add_comm (s.apply _)]
    | _ => rfl

theorem sign_mul_comm (s t : UnpackedFloat.Sign) : s * t = t * s := by
  cases s <;> cases t <;> rfl

theorem unpacked_mul_comm (f : Float.Model.Format) (x y : UnpackedFloat) :
    UnpackedFloat.mul f x y = UnpackedFloat.mul f y x := by
  cases x <;> cases y <;>
    simp only [UnpackedFloat.mul, sign_mul_comm, Nat.mul_comm, Int.add_comm]

protected theorem add_comm (x y : Float32) : x + y = y + x :=
  congrArg (fun u => Float32.ofModel (.pack u)) (unpacked_add_comm .binary32 _ _)

protected theorem mul_comm (x y : Float32) : x * y = y * x :=
  congrArg (fun u => Float32.ofModel (.pack u)) (unpacked_mul_comm .binary32 _ _)

section Squares

/-- A number without its sign. -/
def unsigned : UnpackedFloat → UnpackedFloat
  | .notANumber => .notANumber
  | .infinity _ => .infinity .positive
  | .zero _ => .zero .positive
  | .finite _ m e positive => .finite .positive m e positive

variable {f : Float.Model.Format} {x y : UnpackedFloat}

theorem unsigned_unpack_packComponents (s t : UnpackedFloat.Sign) (e : BitVec f.exponentBits)
    (m : BitVec f.mantissaBitsWithoutImplicit) :
    unsigned (.unpack f (UnpackedFloat.packComponents f s e m)) =
      unsigned (.unpack f (UnpackedFloat.packComponents f t e m)) := by
  unfold UnpackedFloat.unpack
  simp only [UnpackedFloat.unpackExponent_packComponents,
    UnpackedFloat.unpackMantissa_packComponents]
  split_ifs <;> rfl

theorem unsigned_unpack_pack (same : unsigned x = unsigned y) :
    unsigned (.unpack f (UnpackedFloat.pack f x)) =
      unsigned (.unpack f (UnpackedFloat.pack f y)) := by
  cases x with
  | notANumber =>
    cases y with
    | notANumber => rfl
    | _ => contradiction
  | infinity s =>
    cases y with
    | infinity t => exact unsigned_unpack_packComponents s t _ _
    | _ => contradiction
  | zero s =>
    cases y with
    | zero t => exact unsigned_unpack_packComponents s t _ _
    | _ => contradiction
  | finite s m e positive =>
    cases y with
    | finite t m' e' positive' =>
      obtain ⟨-, rfl, rfl⟩ := UnpackedFloat.finite.inj same
      simp only [UnpackedFloat.pack]
      split_ifs
      · exact unsigned_unpack_packComponents s t _ _
      · exact unsigned_unpack_packComponents s t _ _
      · exact unsigned_unpack_packComponents s t _ _
    | _ => contradiction

theorem unsigned_round (s t : UnpackedFloat.Sign) (m : Nat) (e : Int) :
    unsigned (.round f s m e) = unsigned (.round f t m e) := by
  unfold UnpackedFloat.round UnpackedFloat.roundWithAccuracy
  dsimp only
  split_ifs <;> rfl

theorem unsigned_normalize_neg (m e : Int) (s : UnpackedFloat.Sign) :
    unsigned (.normalize f (-m) e s) = unsigned (.normalize f m e s) := by
  unfold UnpackedFloat.normalize
  rcases Int.lt_trichotomy m 0 with low | rfl | high
  · have up : compare (-m) 0 = .gt := compare_gt_iff_gt.mpr (by omega)
    have down : compare m 0 = .lt := compare_lt_iff_lt.mpr low
    rw [up, down]
    exact unsigned_round ..
  · rfl
  · have down : compare (-m) 0 = .lt := compare_lt_iff_lt.mpr (by omega)
    have up : compare m 0 = .gt := compare_gt_iff_gt.mpr high
    rw [up, down]
    dsimp only
    rw [Int.neg_neg]
    exact unsigned_round ..

theorem unsigned_sub_comm (f : Float.Model.Format) (x y : UnpackedFloat) :
    unsigned (.sub f x y) = unsigned (.sub f y x) := by
  cases x with
  | notANumber => cases y <;> rfl
  | infinity s =>
    cases y with
    | infinity t => cases s <;> cases t <;> rfl
    | _ => rfl
  | zero s =>
    cases y with
    | zero t => cases s <;> cases t <;> rfl
    | _ => rfl
  | finite s m e positive =>
    cases y with
    | finite t m' e' positive' =>
      simp only [UnpackedFloat.sub, Int.min_comm e' e]
      rw [← unsigned_normalize_neg, Int.neg_sub]
    | _ => rfl

theorem mul_self_unsigned (x : UnpackedFloat) :
    UnpackedFloat.mul f x x = UnpackedFloat.mul f (unsigned x) (unsigned x) := by
  cases x with
  | notANumber => rfl
  | infinity s | zero s | finite s => cases s <;> rfl

theorem square_sub_comm (x y : Float) : (x - y) * (x - y) = (y - x) * (y - x) := by
  have same := unsigned_unpack_pack (f := .binary64)
    (unsigned_sub_comm .binary64 x.toModel.unpack y.toModel.unpack)
  refine congrArg (fun u => Float.ofModel (.pack u)) ?_
  change UnpackedFloat.mul .binary64 (.unpack .binary64 (UnpackedFloat.pack .binary64 _))
    (.unpack .binary64 (UnpackedFloat.pack .binary64 _)) = _
  rw [mul_self_unsigned, same, ← mul_self_unsigned]
  rfl

end Squares

end SwarmEvolution.Number
