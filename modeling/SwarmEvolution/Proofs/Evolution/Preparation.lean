import SwarmEvolution.Evolution.Run
import SwarmEvolution.Proofs.Sampling.Outcomes
import SwarmEvolution.Proofs.Settings.Validity

/-! What a breeder has from the settings it is prepared from. -/
namespace SwarmEvolution.Breeder

open Sampling Draw

/-- A breeder keeps the settings that it is prepared from as they are, and they are valid. -/
structure PreparedFrom (b : Breeder) (s : Settings) : Prop where
  valid : s.validate = .ok ()
  settings : b.settings = s.evolution
  optimisation : b.optimisation = s.optimisation
  tried : b.evaluator.optimisation = s.optimisation

theorem ofParts_optimisation {machine : Settings.Machine} {optimisation : Settings.Optimisation}
    {problems : List Problem} {starts : StartPoints} {keepTrajectories : Bool} {e : Evaluator}
    (built : Evaluator.ofParts machine optimisation problems starts keepTrajectories = .ok e) :
    e.optimisation = optimisation := by
  unfold Evaluator.ofParts at built
  split at built
  · contradiction
  · split at built
    · contradiction
    · obtain rfl := Except.ok.inj built
      rfl

theorem prepare_from (s : Settings) (d : Directory) :
    (prepare s d).Always fun prepared => ∀ b, prepared.1 = .ok b → b.PreparedFrom s := by
  unfold prepare
  split
  · exact always_pure (by simp)
  case _ valid =>
  split
  · exact always_pure (by simp)
  refine always_bind fun listed => ?_
  cases listed with
  | error f => exact always_pure (by simp)
  | ok problems =>
  refine always_bind fun started => always_pure fun b same => ?_
  obtain ⟨starts, after⟩ := started
  cases starts with
  | error f => contradiction
  | ok starts =>
  dsimp only [Except.bind] at same
  cases built : Evaluator.ofParts s.machine s.optimisation problems starts
      (s.evolution.reproduction = Reproduction.crowding) with
  | error f =>
    rw [built] at same
    contradiction
  | ok e =>
    rw [built] at same
    obtain rfl := Except.ok.inj same
    exact ⟨valid, rfl, rfl, ofParts_optimisation built⟩

/-- A breeder is only prepared from valid settings, and keeps those of evolution as they are. -/
theorem prepare_settings (s : Settings) (d : Directory) :
    (prepare s d).Always fun prepared => ∀ b, prepared.1 = .ok b →
      b.settings = s.evolution ∧ s.evolution.validate = .ok () :=
  (prepare_from s d).mono fun _ kept b same =>
    ⟨(kept b same).settings, (Settings.validate_ok_iff.mp (kept b same).valid).1⟩

end SwarmEvolution.Breeder
