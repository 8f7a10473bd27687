import SwarmEvolution.Proofs.Swarm.History

/-! A pool of equal programs runs as that program does. It draws one of them for every turn, but all
other chance of a run is drawn before the first turn, or comes from the machine's own stream. -/
namespace SwarmEvolution

open Sampling Draw

/-- Only one program is ever drawn. -/
def Genotype.Uniform (g : Genotype) (p : Program) : Prop := g.draw.Always (· = p)

theorem Genotype.single_uniform (p : Program) : (Genotype.single p).Uniform p := always_pure rfl

theorem Genotype.replicate_uniform (p : Program) {k : Nat} (some : 0 < k) :
    (Genotype.ensemble (List.replicate k p)).Uniform p := by
  obtain ⟨k, rfl⟩ := Nat.exists_eq_add_one_of_ne_zero (Nat.ne_of_gt some)
  refine always_bind fun drawn => always_pure ?_
  have same : ∀ q ∈ (p :: List.replicate k p)[drawn]?, q = p := by
    intro q found
    exact List.eq_of_mem_replicate (n := k + 1) (List.mem_of_getElem? found)
  cases found : (p :: List.replicate k p)[drawn]? with
  | none => rfl
  | some q => exact same q found

namespace Swarm

variable {problem : Problem} {settings : Settings.Machine} {g h : Genotype} {p : Program}

/-- Neither the streams nor the genotypes make a difference to a turn, as the program is the
same. -/
theorem turn_uniform (left : g.Uniform p) (right : h.Uniform p) (number best : Nat) (s : State)
    (index : Nat) (random random' : Stream) :
    (turn ⟨problem, g, settings⟩ number best s index random).1 =
      (turn ⟨problem, h, settings⟩ number best s index random').1 := by
  unfold turn
  cases s.members[index]? with
  | none => rfl
  | some member =>
    dsimp only
    rw [bind_apply, bind_apply, left random, right random']
    rfl

theorem move_uniform (left : g.Uniform p) (right : h.Uniform p) (s : State) (number : Nat)
    (random random' : Stream) :
    (move ⟨problem, g, settings⟩ s number random).1 =
      (move ⟨problem, h, settings⟩ s number random').1 :=
  foldlM_outcome (turn_uniform left right number _) _ s random random'

theorem run_uniform (left : g.Uniform p) (right : h.Uniform p) (start? : Nat → Option Point)
    (size moves : Nat) (record : Bool) (random : Stream) :
    (run ⟨problem, g, settings⟩ start? size moves record random).1 =
      (run ⟨problem, h, settings⟩ start? size moves record random).1 := by
  have same : opening ⟨problem, g, settings⟩ start? size moves record random =
      opening ⟨problem, h, settings⟩ start? size moves record random := rfl
  change ((List.range moves).foldlM (move ⟨problem, g, settings⟩)
    (opening ⟨problem, g, settings⟩ start? size moves record random).1 _).1 = _
  rw [same]
  exact foldlM_outcome (move_uniform left right) (List.range moves) _ _ _

end Swarm

namespace Evaluator

/-- The runs of a pool of copies of a program are those of the program on its own, from the same
stream and with as many members. -/
theorem copies_run_alike (e : Evaluator) {i j : Individual} {p : Program} {k : Nat}
    (some : 0 < k) (alone : i.genotype = .single p)
    (pool : j.genotype = .ensemble (List.replicate k p)) (size : e.swarmSize j = e.swarmSize i)
    (problem : Problem) (index runNumber : Nat) (record : Bool) (random : Stream) :
    (e.run j problem index runNumber record random).1 =
      (e.run i problem index runNumber record random).1 := by
  have left := Genotype.replicate_uniform p some
  have right := Genotype.single_uniform p
  unfold run
  rw [size, alone, pool]
  exact Swarm.run_uniform left right _ _ _ record random

/-- Two programs that are the same. -/
def twins : Individual := .ofEnsemble (List.replicate 2 wandering.program)

theorem twins_run_alike : 0 < 2 ∧ wandering.genotype = .single wandering.program ∧
    twins.genotype = .ensemble (List.replicate 2 wandering.program) ∧
    duo.swarmSize twins = duo.swarmSize wandering ∧
    (duo.run twins .line 0 0 true (.ofSeed 0)).1 =
      (duo.run wandering .line 0 0 true (.ofSeed 0)).1 := by
  have some : 0 < 2 := by decide
  have size : duo.swarmSize twins = duo.swarmSize wandering := by decide
  exact ⟨some, rfl, rfl, size, copies_run_alike duo some rfl rfl size .line 0 0 true (.ofSeed 0)⟩

end Evaluator
end SwarmEvolution
