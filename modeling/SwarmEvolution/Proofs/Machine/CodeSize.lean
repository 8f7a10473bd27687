import SwarmEvolution.Proofs.Machine.Steps

/-! How large code gets while it runs. What the settings allow is kept by every instruction but
those that build loops, so code outgrows it exactly where a loop does. -/
namespace SwarmEvolution

namespace Machine

/-- No piece of code on the stacks has more than so many points. -/
def CodeWithin (m : Machine) (limit : Nat) : Prop :=
  ∀ c, c ∈ m.frame.code.items ∨ c ∈ m.frame.exec.items → c.points ≤ limit

def sizeLaw (settings : Settings.Machine) : Law where
  settings := settings
  code c := c.points ≤ settings.maxCodePoints

variable {settings : Settings.Machine} {view : SwarmView} {m : Machine}

theorem sizeLaw_point (p : Point) : (sizeLaw settings).point p := ⟨trivial, fun _ _ => trivial⟩

theorem CodeWithin.obeys (within : m.CodeWithin m.settings.maxCodePoints) :
    m.Obeys (sizeLaw m.settings) where
  settings := rfl
  stack k := by
    cases k with
    | integer | boolean | float => exact fun _ _ => trivial
    | vector => exact fun p _ => sizeLaw_point p
    | code => exact fun c member => within c (.inl member)
    | exec => exact fun c member => within c (.inr member)
  input v _ := by
    cases v with
    | integer _ | boolean _ | float _ => trivial
    | vector p => exact sizeLaw_point p

theorem Obeys.codeWithin (obeys : m.Obeys (sizeLaw settings)) :
    m.CodeWithin settings.maxCodePoints := by
  rintro c (member | member)
  · exact obeys.stack .code c member
  · exact obeys.stack .exec c member

/-- One point has to be allowed, because nothing keeps a value from being quoted. -/
theorem sizeLaw_closed (view : SwarmView) (room : 1 ≤ settings.maxCodePoints) :
    (sizeLaw settings).Closed view where
  zero := trivial
  one := trivial
  clamped _ _ _ := trivial
  whole _ := trivial
  dimensions := trivial
  shorter _ _ := trivial
  seen _ _ p _ := sizeLaw_point p
  atom _ _ := room
  literal _ := trivial
  item {cs c} lawful member := by
    have part : c.points ≤ Code.pointsOfAll cs := Code.points_le_pointsOfAll member
    have whole : 1 + Code.pointsOfAll cs ≤ settings.maxCodePoints := lawful
    show c.points ≤ settings.maxCodePoints
    omega
  empty := room
  tail {cs} lawful := by
    have part : Code.pointsOfAll cs.tail ≤ Code.pointsOfAll cs := Code.pointsOfAll_tail_le cs
    have whole : 1 + Code.pointsOfAll cs ≤ settings.maxCodePoints := lawful
    show 1 + Code.pointsOfAll cs.tail ≤ settings.maxCodePoints
    omega
  combined _ fits := fits

/-- What a body leaves behind is not asked for its size once its code is thrown away. -/
theorem sizeLaw_tolerates (depth : Nat) :
    (sizeLaw settings).Tolerates (runBody view depth) := by
  intro m body obeys _
  have same := surroundings_runBody view depth m body
  have kept : (runBody view depth m body).settings = settings :=
    (congrArg Surroundings.settings same).trans obeys.settings
  have published : (runBody view depth m body).input = m.input :=
    congrArg Surroundings.input same
  refine ⟨kept, fun k => ?_, fun v member => obeys.input v (published ▸ member)⟩
  cases k with
  | integer | boolean | float => exact fun _ _ => trivial
  | vector => exact fun p _ => sizeLaw_point p
  | code | exec => exact fun _ member => absurd member List.not_mem_nil

/-- All code stays within the limit on points, within bodies too, exactly if every loop that a step
puts together is within it. -/
theorem codeWithin_iff_loops (view : SwarmView) (p : Program) (limit : Nat) (m : Machine)
    (room : 1 ≤ m.settings.maxCodePoints) (fits : p.points ≤ m.settings.maxCodePoints)
    (within : m.CodeWithin m.settings.maxCodePoints) :
    (∀ s, Takes view m.levels limit (m.pushExec p.toCode) s →
        (s.after view).CodeWithin m.settings.maxCodePoints) ↔
      ∀ s, Takes view m.levels limit (m.pushExec p.toCode) s →
        ∀ i loop, s.code = .instruction i → s.before.Builds i loop →
          loop.points ≤ m.settings.maxCodePoints := by
  constructor
  · intro small s takes i loop same builds
    have after : s.after view = performWith view (runBody view s.depth) s.before i := by
      rw [Step.after, same]
      rfl
    refine small s takes loop (.inr ?_)
    rw [after]
    exact builds.mem_exec view _
  · intro loops s takes
    have closed := sizeLaw_closed view room
    have start : (m.pushExec p.toCode).Obeys (sizeLaw m.settings) :=
      within.obeys.push (k := .exec) fits
    have kept : ∀ s, Takes view m.levels limit (m.pushExec p.toCode) s →
        s.before.Obeys (sizeLaw m.settings) → (sizeLaw m.settings).code s.code →
          (s.after view).Obeys (sizeLaw m.settings) := fun s takes before lawful =>
      stepWith_obeys closed (sizeLaw_tolerates s.depth) (loops s takes) lawful before
    exact (takes.obeys closed sizeLaw_tolerates kept start).2.2.codeWithin

/-- A machine that allows four points of code. -/
def tight : Machine := Machine.ofSeed { maxCodePoints := 4 } 0

/-- Does nothing twice, which takes four points to say. -/
def counting : Program :=
  ⟨[.atom (.integer 2), .instruction (.exec .count), .instruction (.exec .noop)]⟩

theorem tight_codeWithin : tight.CodeWithin tight.settings.maxCodePoints := by
  rintro c (member | member)
  · exact absurd member List.not_mem_nil
  · exact absurd member List.not_mem_nil

theorem counting_codeWithin_iff_loops :
    (∀ s, Takes .empty tight.levels 3 (tight.pushExec counting.toCode) s →
        (s.after .empty).CodeWithin tight.settings.maxCodePoints) ↔
      ∀ s, Takes .empty tight.levels 3 (tight.pushExec counting.toCode) s →
        ∀ i loop, s.code = .instruction i → s.before.Builds i loop →
          loop.points ≤ tight.settings.maxCodePoints :=
  codeWithin_iff_loops .empty counting 3 tight (by decide) (by decide) tight_codeWithin

/-- The loop over a single point of code has five, and it is on the exec stack after three steps. -/
theorem counting_outgrows :
    1 ≤ tight.settings.maxCodePoints ∧ counting.points ≤ tight.settings.maxCodePoints ∧
      tight.CodeWithin tight.settings.maxCodePoints ∧
      ∃ s, Takes .empty tight.levels 3 (tight.pushExec counting.toCode) s ∧
        ¬ (s.after .empty).CodeWithin tight.settings.maxCodePoints := by
  refine ⟨by decide, by decide, tight_codeWithin, _, .later rfl (.later rfl (.first rfl)), ?_⟩
  intro within
  have small := within (rangeLoop 0 1 (.instruction (.exec .noop))) (.inr (.head _))
  rw [points_rangeLoop] at small
  exact absurd small (by decide)

end Machine
end SwarmEvolution
