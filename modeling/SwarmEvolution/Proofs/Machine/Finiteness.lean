import SwarmEvolution.Proofs.Machine.Steps
import SwarmEvolution.Proofs.Number.Finite

/-! Programs do not leave the finite numbers. Results of arithmetic are clamped, so it does not
matter what they are; what is not clamped is an operand that comes back or a whole number. -/
namespace SwarmEvolution

open Number

def Point.AllFinite (p : Point) : Prop := ∀ x ∈ p, x.isFinite

def Code.AllFinite (c : Code) : Prop := ∀ x, .float x ∈ c.atoms → x.isFinite

def Published.AllFinite : Published → Prop
  | .integer _ | .boolean _ => True
  | .float x => x.isFinite
  | .vector p => p.AllFinite

def SwarmView.AllFinite (view : SwarmView) : Prop :=
  ∀ member best p, view.position? member best = some p → p.AllFinite

namespace Machine

/-- All numbers on the stacks, in code and among the published values are finite. -/
structure AllFinite (m : Machine) : Prop where
  floats : ∀ x ∈ m.frame.floats.items, x.isFinite
  vectors : ∀ p ∈ m.frame.vectors.items, p.AllFinite
  code : ∀ c ∈ m.frame.code.items, c.AllFinite
  exec : ∀ c ∈ m.frame.exec.items, c.AllFinite
  input : ∀ v ∈ m.input.items, v.AllFinite

def finiteLaw (settings : Settings.Machine) : Law :=
  .ofValues settings (fun x => x.isFinite) fun _ => True

variable {settings : Settings.Machine} {view : SwarmView} {m : Machine}

theorem published_finiteLaw {v : Published} : (finiteLaw settings).published v ↔ v.AllFinite := by
  cases v with
  | integer _ | boolean _ | float _ => exact Iff.rfl
  | vector p => exact and_iff_right trivial

theorem AllFinite.obeys (finite : m.AllFinite) : m.Obeys (finiteLaw m.settings) where
  settings := rfl
  stack k := by
    cases k with
    | integer | boolean => exact fun _ _ => trivial
    | float => exact finite.floats
    | vector => exact fun p member => ⟨trivial, finite.vectors p member⟩
    | code => exact finite.code
    | exec => exact finite.exec
  input v member := published_finiteLaw.mpr (finite.input v member)

theorem Obeys.allFinite (obeys : m.Obeys (finiteLaw settings)) : m.AllFinite where
  floats := obeys.stack .float
  vectors p member := (obeys.stack .vector p member).2
  code := obeys.stack .code
  exec := obeys.stack .exec
  input v member := published_finiteLaw.mp (obeys.input v member)

theorem finiteLaw_closed (settings : Settings.Machine) (seen : view.AllFinite) :
    (finiteLaw settings).Closed view :=
  Law.ofValues_closed (by decide) (by decide) isFinite_clampOr isFinite_ofInt32 trivial
    (fun _ _ => trivial) fun member best p found => ⟨trivial, seen member best p found⟩

/-- Where all numbers are finite before a program, they are after every step of it, within bodies
too, and after it. -/
theorem execute_allFinite (view : SwarmView) (seen : view.AllFinite) (p : Program) (limit : Nat)
    (m : Machine) (literals : p.toCode.AllFinite) (finite : m.AllFinite) :
    (∀ s, Takes view m.levels limit (m.pushExec p.toCode) s → (s.after view).AllFinite) ∧
      (m.execute view p limit).1.AllFinite := by
  have closed := finiteLaw_closed m.settings seen
  have start : (m.pushExec p.toCode).Obeys (finiteLaw m.settings) :=
    finite.obeys.push (k := .exec) literals
  have steps : ∀ s, Takes view m.levels limit (m.pushExec p.toCode) s →
      (s.after view).AllFinite := fun s takes =>
    (takes.obeys_unlimited closed Law.ofValues_unlimited start).allFinite
  refine ⟨steps, ?_⟩
  rcases runWith_eq_after view m.levels limit (m.pushExec p.toCode) with same | ⟨s, takes, after⟩
  · have ended : (m.execute view p limit).1 = m.pushExec p.toCode := same
    rw [ended]
    exact start.allFinite
  · have ended : s.after view = (m.execute view p limit).1 := after
    rw [← ended]
    exact steps s takes

/-- A machine with the largest number on its floats, in a vector and published. -/
def brimming : Machine :=
  { Machine.ofSeed {} 0 with
    frame := { floats := ⟨[largest]⟩, vectors := ⟨[[largest, 1]]⟩ }
    input := ⟨[.float largest]⟩ }

/-- Adds up what is too large to be added up. -/
def overflowing : Program := ⟨[.atom (.float largest), .instruction (.float .add)]⟩

theorem isFinite_largest : largest.isFinite := by decide

theorem brimming_allFinite : brimming.AllFinite where
  floats := List.forall_mem_singleton.mpr isFinite_largest
  vectors := List.forall_mem_singleton.mpr
    (List.forall_mem_cons.mpr ⟨isFinite_largest, List.forall_mem_singleton.mpr (by decide)⟩)
  code _ member := absurd member List.not_mem_nil
  exec _ member := absurd member List.not_mem_nil
  input := List.forall_mem_singleton.mpr isFinite_largest

theorem overflowing_literals : overflowing.toCode.AllFinite := by
  intro x member
  simp only [overflowing, Program.toCode, Code.instruction, Code.atoms, Code.atomsOfAll] at member
  obtain rfl : x = largest := by simpa using member
  exact isFinite_largest

theorem brimming_stays_finite :
    (∀ s, Takes .empty brimming.levels 10 (brimming.pushExec overflowing.toCode) s →
        (s.after .empty).AllFinite) ∧
      (brimming.execute .empty overflowing 10).1.AllFinite :=
  execute_allFinite .empty (fun _ _ _ found => by contradiction) overflowing 10 brimming
    overflowing_literals brimming_allFinite

end Machine
end SwarmEvolution
