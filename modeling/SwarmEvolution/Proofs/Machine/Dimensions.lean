import SwarmEvolution.Proofs.Machine.Lawful

/-! Programs do not change the length of vectors. What an instruction makes of vectors is as long as
they are, and what it makes of nothing has a component per dimension. -/
namespace SwarmEvolution

/-- All points that a program can see have the same length. -/
def SwarmView.OfLength (view : SwarmView) (d : Nat) : Prop :=
  ∀ member best p, view.position? member best = some p → p.length = d

def Frame.OfLength (f : Frame) (d : Nat) : Prop := ∀ p ∈ f.vectors.items, p.length = d

namespace Machine

/-- All published vectors have the same length. -/
def InputOfLength (m : Machine) (d : Nat) : Prop :=
  ∀ p, Published.vector p ∈ m.input.items → p.length = d

def lengthLaw (settings : Settings.Machine) : Law :=
  .ofValues settings (fun _ => True) (· = settings.vectorDimensions)

variable {settings : Settings.Machine} {view : SwarmView} {m : Machine}

theorem lengthLaw_point {p : Point} (length : p.length = settings.vectorDimensions) :
    (lengthLaw settings).point p := ⟨length, fun _ _ => trivial⟩

theorem lengthLaw_code (c : Code) : (lengthLaw settings).code c := fun _ _ => trivial

theorem lengthLaw_closed (settings : Settings.Machine)
    (seen : view.OfLength settings.vectorDimensions) : (lengthLaw settings).Closed view :=
  Law.ofValues_closed trivial trivial (fun _ _ _ => trivial) (fun _ => trivial) rfl
    (fun {m n} left right => by rw [left, right, Nat.min_self])
    fun member best p found => lengthLaw_point (seen member best p found)

theorem obeys_lengthLaw (vectors : m.frame.OfLength m.dimensions)
    (published : m.InputOfLength m.dimensions) : m.Obeys (lengthLaw m.settings) where
  settings := rfl
  stack k := by
    cases k with
    | integer | boolean | float => exact fun _ _ => trivial
    | vector => exact fun p member => lengthLaw_point (vectors p member)
    | code | exec => exact fun c _ => lengthLaw_code c
  input v member := by
    cases v with
    | integer _ | boolean _ | float _ => trivial
    | vector p => exact lengthLaw_point (published p member)

/-- A program of any length, cut off anywhere, leaves vectors of the machine's length behind. -/
theorem execute_ofLength (view : SwarmView) (p : Program) (limit : Nat) (m : Machine)
    (seen : view.OfLength m.dimensions) (vectors : m.frame.OfLength m.dimensions)
    (published : m.InputOfLength m.dimensions) :
    (m.execute view p limit).1.frame.OfLength m.dimensions := by
  have closed := lengthLaw_closed m.settings seen
  have tolerates := runBody_tolerated closed Law.ofValues_unlimited m.levels
  have start : (m.pushExec p.toCode).Obeys (lengthLaw m.settings) :=
    (obeys_lengthLaw vectors published).push (k := .exec) (lengthLaw_code _)
  have after : (m.execute view p limit).1.Obeys (lengthLaw m.settings) :=
    runWith_obeys closed tolerates Law.ofValues_unlimited limit start
  exact fun p member => (after.stack .vector p member).1

end Machine
end SwarmEvolution
