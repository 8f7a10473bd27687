import SwarmEvolution.Proofs.Machine.Bodies
import SwarmEvolution.Proofs.Machine.Termination
import SwarmEvolution.Proofs.Number.Commutativity

/-! Arithmetic on two vectors, done by an instruction on vectors or by one on numbers that is run
for each pair of components. The body finds the component of the top vector below the other one, so
it works on them in the opposite order: a sum or a product comes out the same, and a difference is
taken of the lower vector from the top one. -/
namespace SwarmEvolution.Machine

open Number Act

/-- An operation on numbers, with the instruction that performs it on numbers and the one that does
so on the components of vectors. -/
inductive Componentwise : FloatOp → VectorOp → (Float32 → Float32 → Float32) → Prop where
  | add : Componentwise .add .add (· + ·)
  | sub : Componentwise .sub .sub (· - ·)
  | mul : Componentwise .mul .mul (· * ·)

variable {view : SwarmView} {m : Machine} {op : FloatOp} {onVectors : VectorOp}
  {f : Float32 → Float32 → Float32} {p q : Point} {vs : List Point} {rest : List Code}

/-- The machine with other vectors and other code to run. -/
def withOperands (m : Machine) (vectors : List Point) (exec : List Code) : Machine :=
  { m with frame.vectors := ⟨vectors⟩, frame.exec := ⟨exec⟩ }

namespace Componentwise

theorem perform_vector (pointwise : Componentwise op onVectors f) :
    (m.withOperands (p :: q :: vs) rest).perform view (.vector onVectors) =
      m.withOperands (List.zipWith (fun x y => clamp (f x y)) q p :: vs) rest := by
  cases pointwise <;> rfl

/-- The number pushed first is the left operand. -/
theorem performWith_float (pointwise : Componentwise op onVectors f)
    (runBody : Machine → Code → Machine) (m : Machine) (x y : Float32) :
    performWith view runBody ((m.pushFloat x).pushFloat y) (.float op) =
      m.pushFloat (clamp (f x y)) := by
  cases pointwise <;> rfl

theorem onComponent_float (pointwise : Componentwise op onVectors f) (depth : Nat) (m : Machine)
    (x y : Float32) :
    onComponent (runBody view (depth + 1) · (.instruction (.float op))) x (some y) m =
      (clamp (f x y), m.withoutCode) := by
  have ran : runBody view (depth + 1) ((m.pushFloat x).pushFloat y) (.instruction (.float op)) =
      m.pushFloat (clamp (f x y)) := pointwise.performWith_float _ m x y
  simp only [onComponent, Option.elim_some, ran]
  rfl

/-- Each body takes the two numbers that it is given and leaves one, which is taken off. -/
theorem eachComponent_float (pointwise : Componentwise op onVectors f) (depth : Nat)
    (same : p.length = q.length) (idle : m.withoutCode = m) :
    eachComponent (runBody view (depth + 1) · (.instruction (.float op))) p q m =
      (List.zipWith (fun x y => clamp (f x y)) p q, m) := by
  induction p generalizing q with
  | nil => rfl
  | cons x p ih =>
    cases q with
    | nil => contradiction
    | cons y q =>
      have others := ih (Nat.succ.inj same)
      simp only [eachComponent, List.head?_cons, List.tail_cons, pointwise.onComponent_float, idle,
        others, List.zipWith_cons_cons]

theorem perform_zip (pointwise : Componentwise op onVectors f) (same : p.length = q.length)
    (shallow : m.nesting < m.settings.maxNestingDepth) :
    (m.withOperands (p :: q :: vs) (.instruction (.float op) :: rest)).perform view (.vector .zip) =
      m.withOperands (List.zipWith (fun x y => clamp (f x y)) p q :: vs) rest := by
  let caller := m.withOperands (p :: q :: vs) (.instruction (.float op) :: rest)
  have taken : (bodyOperands true).on caller =
      (some (p, q, .instruction (.float op)), m.withOperands vs rest) := rfl
  have shallow : caller.nesting < caller.settings.maxNestingDepth := shallow
  -- Without a level left for it a body would not be run.
  obtain ⟨depth, levels⟩ : ∃ depth, caller.levels = depth + 1 :=
    Nat.exists_eq_succ_of_ne_zero (Nat.sub_ne_zero_of_lt shallow)
  have each : eachComponent (runBody view caller.levels · (.instruction (.float op))) p q
      (m.withOperands vs rest).inner =
        (List.zipWith (fun x y => clamp (f x y)) p q, (m.withOperands vs rest).inner) := by
    rw [levels]
    exact pointwise.eachComponent_float depth same rfl
  refine (step_over rfl shallow taken).trans ?_
  rw [each]
  rfl

end Componentwise

theorem zipWith_exchange_iff {g : Float32 → Float32 → Float32} :
    List.zipWith g p q = List.zipWith g q p ↔ ∀ x y, (x, y) ∈ p.zip q → g x y = g y x := by
  have exchanged : List.zipWith g q p = List.zipWith (fun x y => g y x) p q := List.zipWith_comm
  rw [exchanged, ← List.map_uncurry_zip_eq_zipWith, ← List.map_uncurry_zip_eq_zipWith,
    List.map_inj_left, Prod.forall]
  rfl

theorem withOperands_vectors_inj {us ws : List Point} :
    m.withOperands us rest = m.withOperands ws rest ↔ us = ws := by
  constructor
  · intro same
    exact congrArg (·.frame.vectors.items) same
  · rintro rfl
    rfl

/-- An instruction on numbers that is zipped over two vectors of one length does what the
instruction on vectors does with the two exchanged. So the two instructions agree on sums and
products, and on differences exactly where no pair of components tells the order. -/
theorem zip_agrees_iff (view : SwarmView) (m : Machine) (vs : List Point) (rest : List Code)
    (pointwise : Componentwise op onVectors f) (same : p.length = q.length)
    (shallow : m.nesting < m.settings.maxNestingDepth) :
    (m.withOperands (p :: q :: vs) (.instruction (.float op) :: rest)).perform view (.vector .zip) =
        (m.withOperands (q :: p :: vs) rest).perform view (.vector onVectors) ∧
      ((m.withOperands (p :: q :: vs) (.instruction (.float op) :: rest)).perform view
            (.vector .zip) =
          (m.withOperands (p :: q :: vs) rest).perform view (.vector onVectors) ↔
        (op = .sub → ∀ x y, (x, y) ∈ p.zip q → clamp (x - y) = clamp (y - x))) := by
  rw [pointwise.perform_zip same shallow, pointwise.perform_vector, pointwise.perform_vector]
  refine ⟨rfl, ?_⟩
  rw [withOperands_vectors_inj, List.cons.injEq, and_iff_left rfl, zipWith_exchange_iff]
  cases pointwise with
  | add =>
    exact iff_of_true (fun x y _ => congrArg clamp (Number.add_comm x y)) fun other => by
      contradiction
  | mul =>
    exact iff_of_true (fun x y _ => congrArg clamp (Number.mul_comm x y)) fun other => by
      contradiction
  | sub => exact ⟨fun same _ => same, fun same => same rfl⟩

/-- A machine for vectors with one component. -/
def scalar : Machine := Machine.ofSeed { vectorDimensions := 1 } 0

theorem scalar_shallow : scalar.nesting < scalar.settings.maxNestingDepth := by decide

theorem scalar_zip_agrees_iff :
    Componentwise .sub .sub (· - ·) ∧ ([1] : Point).length = ([5] : Point).length ∧
      scalar.nesting < scalar.settings.maxNestingDepth ∧
      (scalar.withOperands [[1], [5]] [.instruction (.float .sub)]).perform .empty (.vector .zip) =
        (scalar.withOperands [[5], [1]] []).perform .empty (.vector .sub) ∧
      ((scalar.withOperands [[1], [5]] [.instruction (.float .sub)]).perform .empty (.vector .zip) =
          (scalar.withOperands [[1], [5]] []).perform .empty (.vector .sub) ↔
        (FloatOp.sub = .sub → ∀ x y, (x, y) ∈ List.zip ([1] : Point) ([5] : Point) →
          clamp (x - y) = clamp (y - x))) :=
  ⟨.sub, by decide, scalar_shallow,
    zip_agrees_iff .empty scalar [] [] .sub (by decide) scalar_shallow⟩

/-- With one above five, the instruction on vectors gives four, and the zip four below zero. -/
theorem scalar_zip_subtracts_exchanged :
    Componentwise .sub .sub (· - ·) ∧ ([1] : Point).length = ([5] : Point).length ∧
      scalar.nesting < scalar.settings.maxNestingDepth ∧
      (scalar.withOperands [[1], [5]] [.instruction (.float .sub)]).perform .empty (.vector .zip) ≠
        (scalar.withOperands [[1], [5]] []).perform .empty (.vector .sub) := by
  have same : ([1] : Point).length = ([5] : Point).length := by decide
  refine ⟨.sub, same, scalar_shallow, ?_⟩
  rw [Componentwise.sub.perform_zip same scalar_shallow, Componentwise.sub.perform_vector,
    ne_eq, withOperands_vectors_inj]
  decide

end SwarmEvolution.Machine
