import SwarmEvolution.Settings.Basic

/-! What settings are known to keep to once they have been validated. -/
namespace SwarmEvolution.Settings

/-- Settings are accepted if none of the conditions for a fault is met. -/
theorem firstFault_ok_iff {faults : List (Bool × SettingsFault)} :
    firstFault faults = .ok () ↔ ∀ fault ∈ faults, fault.1 = false := by
  unfold firstFault
  constructor
  · intro accepted fault member
    cases found : faults.find? (·.1) with
    | none => simpa using List.find?_eq_none.mp found fault member
    | some fault =>
      rw [found] at accepted
      contradiction
  · intro none
    have nothing : faults.find? (·.1) = Option.none :=
      List.find?_eq_none.mpr fun fault member => by simp [none fault member]
    rw [nothing]

/-- Settings are valid if all their sections are. -/
theorem validate_ok_iff {s : Settings} : s.validate = .ok () ↔
    s.evolution.validate = .ok () ∧ s.machine.validate = .ok () ∧
      s.optimisation.validate = .ok () := by
  unfold Settings.validate
  rw [Failure.bind_eq_ok_iff]
  constructor
  · rintro ⟨_, evolution, rest⟩
    obtain ⟨_, machine, optimisation⟩ := Failure.bind_eq_ok_iff.mp rest
    exact ⟨evolution, machine, optimisation⟩
  · rintro ⟨evolution, machine, optimisation⟩
    exact ⟨_, evolution, Failure.bind_eq_ok_iff.mpr ⟨_, machine, optimisation⟩⟩

namespace Evolution

variable {s : Evolution}

theorem two_le_populationSize (valid : s.validate = .ok ()) : 2 ≤ s.populationSize := by
  have small := firstFault_ok_iff.mp valid (s.populationSize < 2, .populationTooSmall)
    (by simp [faults])
  exact Nat.not_lt.mp (of_decide_eq_false small)

theorem two_le_maxPoints (valid : s.validate = .ok ()) : 2 ≤ s.maxPoints := by
  have small := firstFault_ok_iff.mp valid
    (s.maxPoints < 2 || s.maxRandomCodeSize = 0, .programLimitsTooSmall) (by simp [faults])
  simp only [Bool.or_eq_false_iff, decide_eq_false_iff_not, Nat.not_lt] at small
  exact small.1

end Evolution

namespace Optimisation

variable {s : Optimisation}

/-- Swarm sizes are only evolved where start points are random. -/
theorem evolveSwarmSize_eq_false (valid : s.validate = .ok ()) (saved : s.startMode ≠ .random) :
    s.evolveSwarmSize = false := by
  have fixed := firstFault_ok_iff.mp valid
    (s.evolveSwarmSize && s.startMode ≠ .random, .savedStartsForEvolvingSwarm) (by simp [faults])
  simpa [saved] using fixed

end Optimisation
end SwarmEvolution.Settings
