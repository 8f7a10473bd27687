import SwarmEvolution.Proofs.Machine.Operands
import SwarmEvolution.Proofs.Machine.Steps

/-! Running code comes to an end. The rules of evaluation know nothing of levels: a body is run by
the rules that run the program around it. Every run is derived from them in finitely many
applications, so it ends, and with what the machine computes. It can be cut off anywhere and be
continued from there. -/
namespace SwarmEvolution.Machine

open Act

/-- The step runs a body for each component of a vector. -/
def Reenters (m : Machine) (c : Code) : Prop :=
  ∃ paired, c = .instruction (.overComponents paired) ∧
    m.frame.satisfies (Instruction.overComponents paired).operands ∧
    m.nesting < m.settings.maxNestingDepth

/-- The caller's stacks of code come back after its bodies, and their results are pushed. -/
def resume (caller after : Machine) (result : Point) : Machine :=
  { after with
    frame.exec := caller.frame.exec
    frame.code := caller.frame.code
    nesting := after.nesting - 1 }.pushVector result

variable (view : SwarmView)

mutual

/-- With so many steps to go a machine ends up as another one after some number of steps. -/
inductive Runs : (limit : Nat) → Machine → Machine → (steps : Nat) → Prop
  | spent {m} : Runs 0 m m 0
  | finished {limit m} (empty : m.pop? .exec = none) : Runs limit m m 0
  | step {limit m n next after c steps} (popped : m.pop? .exec = some (c, n))
    (stepped : Steps n c next) (rest : Runs limit next after steps) :
    Runs (limit + 1) m after (steps + 1)

/-- A step on a piece of code. Where it runs no body it does not matter how bodies are run. -/
inductive Steps : Machine → Code → Machine → Prop
  | alone {m c} (alone : ¬ m.Reenters c) : Steps m c (stepWith view (fun m _ => m) m c)
  | components {m paired firsts seconds body caller result after}
    (present : m.frame.satisfies (Instruction.overComponents paired).operands)
    (shallow : m.nesting < m.settings.maxNestingDepth)
    (taken : (bodyOperands paired).on m = (some (firsts, seconds, body), caller))
    (covers : Covers body firsts seconds caller.inner result after) :
    Steps m (.instruction (.overComponents paired)) (caller.resume after result)

/-- A body is run for one component after another. -/
inductive Covers : Code → (firsts seconds : Point) → Machine → (result : Point) → Machine → Prop
  | nil {body seconds m} : Covers body [] seconds m [] m
  | cons {body x firsts seconds m ended value left result after}
    (ran : Bodies (seconds.head?.elim (m.pushFloat x) (m.pushFloat x).pushFloat) body ended)
    (popped : (ended.pop? .float).getD (0, ended) = (value, left))
    (rest : Covers body firsts seconds.tail left.withoutCode result after) :
    Covers body (x :: firsts) seconds m (value :: result) after

/-- A body is a program with a limit of its own, or an instruction; other atoms do nothing. -/
inductive Bodies : Machine → Code → Machine → Prop
  | program {m items after steps}
    (ran : Runs m.settings.nestedExecutionLimit (m.pushExec (.list items)) after steps) :
    Bodies m (.list items) after
  | instruction {m i after} (stepped : Steps m (.instruction i) after) :
    Bodies m (.instruction i) after
  | value {m a} (value : ∀ i, a ≠ .instruction i) : Bodies m (.atom a) m

end

variable {view} {bodies : Machine → Code → Machine} {m n caller after : Machine} {c body : Code}
  {paired : Bool} {firsts seconds result : Point} {limit more steps depth : Nat}

section Equations

theorem left_le (limit : Nat) (m : Machine) : (runWith view bodies limit m).2 ≤ limit := by
  induction limit generalizing m with
  | zero => exact Nat.le_refl 0
  | succ limit ih =>
    rw [runWith]
    cases m.pop? .exec with
    | none => exact Nat.le_refl _
    | some p => exact Nat.le_succ_of_le (ih _)

theorem levels_step (view : SwarmView) (m : Machine) (c : Code) :
    (m.step view c).levels = m.levels :=
  levels_congr (surroundings_stepWith (surroundings_runBody view _) view m c)

theorem run_zero : m.run view 0 = (m, 0) := rfl

theorem run_of_empty (empty : m.pop? .exec = none) : m.run view limit = (m, 0) := by
  cases limit with
  | zero => rfl
  | succ limit => simp [run, runWith, empty]

/-- A run begins with a step and goes on as a run of its own. -/
theorem run_of_popped (popped : m.pop? .exec = some (c, n)) :
    m.run view (limit + 1) =
      (((n.step view c).run view limit).1, ((n.step view c).run view limit).2 + 1) := by
  have before : n.levels = m.levels := levels_congr (surroundings_pop? popped)
  have same : (n.step view c).levels = m.levels := (levels_step view n c).trans before
  have left : (runWith view (runBody view m.levels) limit (n.step view c)).2 ≤ limit :=
    left_le ..
  simp only [run, runWith, popped, same]
  simp only [step, before] at left ⊢
  rw [Nat.sub_add_comm left]

theorem act_of_ne {i : Instruction} (plain : ∀ paired, i ≠ .overComponents paired)
    (other : Machine → Code → Machine) : act view bodies i = act view other i := by
  match i with
  | .stack .. | .integer _ | .float _ | .boolean _ | .exec _ | .code _ | .input _ => rfl
  | .vector op =>
    cases op with
    | zip => exact absurd rfl (plain true)
    | apply => exact absurd rfl (plain false)
    | _ => rfl

theorem act_overComponents :
    act view bodies (.overComponents paired) = higherOrder bodies paired := by
  cases paired <;> rfl

theorem stepWith_alone (alone : ¬ m.Reenters c) (other : Machine → Code → Machine) :
    stepWith view bodies m c = stepWith view other m c := by
  match c with
  | .list _ | .atom (.integer _) | .atom (.float _) | .atom (.boolean _) => rfl
  | .atom (.instruction i) =>
    simp only [stepWith, performWith]
    split
    case isFalse => rfl
    case isTrue present =>
      by_cases vector : ∃ paired, i = .overComponents paired
      · obtain ⟨paired, rfl⟩ := vector
        have deepest : m.settings.maxNestingDepth ≤ m.nesting := by
          by_contra shallow
          exact alone ⟨paired, rfl, present, Nat.not_le.mp shallow⟩
        rw [act_overComponents, act_overComponents, higherOrder_blocked deepest,
          higherOrder_blocked deepest]
      · rw [act_of_ne (not_exists.mp vector) other]

theorem step_over (present : m.frame.satisfies (Instruction.overComponents paired).operands)
    (shallow : m.nesting < m.settings.maxNestingDepth)
    (taken : (bodyOperands paired).on m = (some (firsts, seconds, body), caller)) :
    m.step view (.instruction (.overComponents paired)) =
      caller.resume
        (eachComponent (runBody view m.levels · body) firsts seconds caller.inner).2
        (eachComponent (runBody view m.levels · body) firsts seconds caller.inner).1 :=
  perform_overComponents view present shallow taken

theorem taken_of_present
    (present : m.frame.satisfies (Instruction.overComponents paired).operands) :
    ∃ firsts seconds body caller,
      (bodyOperands paired).on m = (some (firsts, seconds, body), caller) := by
  obtain ⟨firsts, seconds, body, rest, caller, -, exec, taken⟩ := bodyOperands_present present
  have own := taken ⟨rest⟩ m.frame.code
  rw [show m.withStacks (Stack.push ⟨rest⟩ body) m.frame.code = m by
    rw [Stack.push, ← exec]
    rfl] at own
  exact ⟨firsts, seconds, body, _, own⟩

theorem levels_inner (shallow : m.nesting < m.settings.maxNestingDepth)
    (taken : (bodyOperands paired).on m = (some (firsts, seconds, body), caller)) :
    caller.inner.levels + 1 = m.levels := by
  have same : caller.levels = m.levels := by
    have steady := steady_bodyOperands paired m
    rw [taken] at steady
    exact levels_congr steady
  have less : caller.inner.levels = caller.levels - 1 := Nat.sub_succ' ..
  have positive : m.levels = m.settings.maxNestingDepth - m.nesting := rfl
  omega

theorem levels_component (x : Float32) (other : Option Float32) (m : Machine) :
    (other.elim (m.pushFloat x) (m.pushFloat x).pushFloat).levels = m.levels := by
  cases other <;> rfl

end Equations

section Existence

/-- Where steps are derived, runs are: by induction on the limit. -/
theorem runs_of_steps
    (all : ∀ n c, n.levels = depth → Steps view n c (n.step view c)) (level : m.levels = depth) :
    Runs view limit m (m.run view limit).1 (m.run view limit).2 := by
  induction limit generalizing m with
  | zero => exact .spent
  | succ limit ih =>
    cases popped : m.pop? .exec with
    | none =>
      rw [run_of_empty popped]
      exact .finished popped
    | some p =>
      have before : p.2.levels = depth := (levels_congr (surroundings_pop? popped)).trans level
      have after := (levels_step view p.2 p.1).trans before
      rw [run_of_popped popped]
      exact .step popped (all p.2 p.1 before) (ih after)

theorem bodies_of_steps
    (all : ∀ n c, n.levels = depth → Steps view n c (n.step view c)) (level : m.levels = depth)
    (body : Code) : Bodies view m body (runBody view (depth + 1) m body) := by
  subst level
  match body with
  | .list items => exact .program (runs_of_steps all rfl)
  | .atom (.instruction i) => exact .instruction (all m (.instruction i) rfl)
  | .atom (.integer _) | .atom (.float _) | .atom (.boolean _) => exact .value (by simp)

/-- Where bodies are derived, so is one after another: by induction on the components. -/
theorem covers_of_bodies
    (all : ∀ n, n.levels = depth → Bodies view n body (runBody view (depth + 1) n body))
    (level : m.levels = depth) :
    Covers view body firsts seconds m
      (eachComponent (runBody view (depth + 1) · body) firsts seconds m).1
      (eachComponent (runBody view (depth + 1) · body) firsts seconds m).2 := by
  induction firsts generalizing seconds m with
  | nil => exact .nil
  | cons x firsts ih =>
    have start := (levels_component x seconds.head? m).trans level
    have after := surroundings_onComponent (surroundings_runBody view (depth + 1)) body x
      seconds.head? m
    exact .cons (all _ start) rfl (ih ((levels_congr after).trans level))

/-- Every step is derived, by induction on the levels that are left: bodies have one level less. -/
theorem steps_step (m : Machine) (c : Code) : Steps view m c (m.step view c) := by
  induction level : m.levels generalizing m c with
  | zero =>
    have alone : ¬ m.Reenters c := by
      rintro ⟨-, -, -, shallow⟩
      simp only [levels] at level
      omega
    rw [step, stepWith_alone alone]
    exact .alone alone
  | succ depth ih =>
    by_cases reenters : m.Reenters c
    · obtain ⟨paired, rfl, present, shallow⟩ := reenters
      obtain ⟨firsts, seconds, body, caller, taken⟩ := taken_of_present present
      have deeper : caller.inner.levels = depth := by
        have one := levels_inner shallow taken
        omega
      rw [step_over present shallow taken, level]
      exact .components present shallow taken
        (covers_of_bodies (fun n level => bodies_of_steps ih level body) deeper)
    · rw [step, stepWith_alone reenters]
      exact .alone reenters

end Existence

section Uniqueness

mutual

theorem Runs.run_eq {limit : Nat} {m after : Machine} {steps : Nat}
    (runs : Runs view limit m after steps) : m.run view limit = (after, steps) := by
  match runs with
  | .spent => exact run_zero
  | .finished empty => exact run_of_empty empty
  | .step popped stepped rest => rw [run_of_popped popped, stepped.step_eq, rest.run_eq]
termination_by structural runs

theorem Steps.step_eq {m after : Machine} {c : Code} (stepped : Steps view m c after) :
    m.step view c = after := by
  match stepped with
  | .alone alone => exact stepWith_alone alone _
  | .components present shallow taken covers =>
    have deeper := levels_inner shallow taken
    rw [step_over present shallow taken, ← deeper, covers.each_eq rfl]
termination_by structural stepped

theorem Covers.each_eq {m after : Machine} {body : Code} {firsts seconds result : Point}
    (covers : Covers view body firsts seconds m result after) {depth : Nat}
    (level : m.levels = depth) :
    eachComponent (runBody view (depth + 1) · body) firsts seconds m = (result, after) := by
  match covers with
  | .nil => rfl
  | @Covers.cons _ _ x _ seconds _ _ _ _ _ _ ran popped rest =>
    have start := (levels_component x seconds.head? m).trans level
    have here := ran.body_eq start
    have same := levels_congr
      (surroundings_onComponent (surroundings_runBody view (depth + 1)) body x seconds.head? m)
    simp only [onComponent, here, popped] at same
    have later := rest.each_eq (same.trans level)
    simp only [eachComponent, onComponent, here, popped, later]
termination_by structural covers

theorem Bodies.body_eq {m after : Machine} {body : Code} (ran : Bodies view m body after)
    {depth : Nat} (level : m.levels = depth) : runBody view (depth + 1) m body = after := by
  match ran with
  | .program runs =>
    have whole := congrArg Prod.fst runs.run_eq
    rw [run, show (m.pushExec _).levels = depth from level] at whole
    exact whole
  | .instruction stepped =>
    have same := stepped.step_eq
    rw [step, level] at same
    exact same
  | .value (a := a) value =>
    cases a with
    | instruction i => exact absurd rfl (value i)
    | integer _ | float _ | boolean _ => rfl
termination_by structural ran

end

end Uniqueness

section Resuming

theorem isEmpty_of_pop? {k : StackKind} (empty : m.pop? k = none) : (m.stack k).isEmpty := by
  simp only [pop?, Option.map_eq_none_iff, Stack.pop?] at empty
  split at empty
  case _ none => simp [Stack.isEmpty, none]
  case _ => contradiction

theorem run_le (view : SwarmView) (limit : Nat) (m : Machine) : (m.run view limit).2 ≤ limit :=
  Nat.sub_le ..

theorem run_exhausts (short : (m.run view limit).2 < limit) :
    (m.run view limit).1.frame.exec.isEmpty := by
  induction limit generalizing m with
  | zero => exact absurd short (Nat.not_lt_zero _)
  | succ limit ih =>
    cases popped : m.pop? .exec with
    | none =>
      rw [run_of_empty popped]
      exact isEmpty_of_pop? popped
    | some p =>
      rw [run_of_popped popped] at short ⊢
      exact ih (Nat.lt_of_succ_lt_succ short)

/-- A run that is cut off and continued is the run that is not. -/
theorem run_add (view : SwarmView) (limit more : Nat) (m : Machine) :
    m.run view (limit + more) =
      (((m.run view limit).1.run view more).1,
        (m.run view limit).2 + ((m.run view limit).1.run view more).2) := by
  induction limit generalizing m with
  | zero => simp [run_zero]
  | succ limit ih =>
    rw [Nat.add_right_comm]
    cases popped : m.pop? .exec with
    | none => simp [run_of_empty popped]
    | some p =>
      rw [run_of_popped popped, run_of_popped popped, ih]
      simp only [Nat.add_right_comm]

end Resuming

/-- Running code ends, by the rules alone and in one way, after at most as many steps as it is given
and after fewer only when no code is left. It can be continued after any number of steps as if it
had not been cut off. The surroundings of the machine are the same before and after. -/
theorem executeCode_bounded (view : SwarmView) (c : Code) (limit more : Nat) (m : Machine) :
    (∀ after steps, Runs view limit (m.pushExec c) after steps ↔
        m.executeCode view c limit = (after, steps)) ∧
      (m.executeCode view c limit).2 ≤ limit ∧
      ((m.executeCode view c limit).2 < limit →
        (m.executeCode view c limit).1.frame.exec.isEmpty) ∧
      m.executeCode view c (limit + more) =
        (((m.executeCode view c limit).1.run view more).1,
          (m.executeCode view c limit).2 + ((m.executeCode view c limit).1.run view more).2) ∧
      (m.executeCode view c limit).1.surroundings = m.surroundings := by
  refine ⟨fun after steps => ⟨Runs.run_eq, ?_⟩, run_le .., run_exhausts, run_add ..,
    surroundings_run view limit (m.pushExec c)⟩
  intro ended
  have derived : Runs view limit (m.pushExec c) _ _ :=
    runs_of_steps (fun n c _ => steps_step n c) rfl
  rw [show (m.pushExec c).run view limit = (after, steps) from ended] at derived
  exact derived

end SwarmEvolution.Machine
