import SwarmEvolution.Proofs.Machine.Completion
import SwarmEvolution.Proofs.Machine.Surroundings

/-! What code that is run for the components of a vector can do to its caller. It has code and exec
stacks of its own, so the caller's come back as they were, and nothing that it leaves behind depends
on what they hold. -/
namespace SwarmEvolution

/-- The instruction that runs code for each component of a vector, or of two vectors. -/
def Instruction.overComponents (paired : Bool) : Instruction :=
  .vector (if paired then .zip else .apply)

namespace Machine

open Act

/-- The machine with other exec and code stacks. -/
def withStacks (m : Machine) (exec code : Stack Code) : Machine :=
  { m with frame.exec := exec, frame.code := code }

/-- The machine for the bodies: without code, and one level further down. -/
def inner (m : Machine) : Machine := { m.withoutCode with nesting := m.nesting + 1 }

/-- The vectors and the body that are taken off the stacks; the second vector only when `paired`. -/
def bodyOperands (paired : Bool) : Act (Point × Point × Code) := do
  let firsts ← pop .vector
  let seconds ← if paired then pop .vector else pure []
  let body ← pop .exec
  return (firsts, seconds, body)

variable {runBody : Machine → Code → Machine} {m caller : Machine}
  {paired : Bool} {firsts seconds : Point} {body : Code}

theorem on_bodyOperands_apply {p : Point} {vs : List Point} {body : Code} {rest : List Code}
    (vectors : m.frame.vectors.items = p :: vs) (exec : m.frame.exec.items = body :: rest) :
    (bodyOperands false).on m = (some (p, [], body),
      { m with frame.vectors := ⟨vs⟩, frame.exec := ⟨rest⟩ }) := by
  obtain ⟨settings, ⟨integers, floats, booleans, ⟨_⟩, code, ⟨_⟩⟩, _⟩ := m
  subst vectors exec
  rfl

theorem on_bodyOperands_zip {p q : Point} {vs : List Point} {body : Code} {rest : List Code}
    (vectors : m.frame.vectors.items = p :: q :: vs) (exec : m.frame.exec.items = body :: rest) :
    (bodyOperands true).on m = (some (p, q, body),
      { m with frame.vectors := ⟨vs⟩, frame.exec := ⟨rest⟩ }) := by
  obtain ⟨settings, ⟨integers, floats, booleans, ⟨_⟩, code, ⟨_⟩⟩, _⟩ := m
  subst vectors exec
  rfl

/-- What the operands are, and that no other code is looked at to take them. -/
theorem bodyOperands_present
    (present : m.frame.satisfies (Instruction.overComponents paired).operands) :
    ∃ firsts seconds body rest, ∃ caller : Machine,
      m.frame.vectors.top? = some firsts ∧ m.frame.exec.items = body :: rest ∧
      ∀ others code, (bodyOperands paired).on (m.withStacks (others.push body) code) =
        (some (firsts, seconds, body), caller.withStacks others code) := by
  have sizes := Frame.satisfies_iff.mp present
  obtain ⟨body, rest, exec⟩ := items_of_size_pos (m := m) (k := .exec) (by
    have one := sizes .exec
    cases paired <;> exact one)
  cases paired with
  | false =>
    obtain ⟨p, vs, vectors⟩ := items_of_size_pos (m := m) (k := .vector) (sizes .vector)
    refine ⟨p, [], body, rest, { m with frame.vectors := ⟨vs⟩ }, ?_, exec, fun others code => ?_⟩
    · exact List.head?_eq_some_iff.mpr ⟨vs, vectors⟩
    · exact on_bodyOperands_apply (m := m.withStacks (others.push body) code) vectors rfl
  | true =>
    have two : 2 ≤ m.frame.vectors.items.length := sizes .vector
    match vectors : m.frame.vectors.items with
    | [] | [_] => simp [vectors] at two
    | p :: q :: vs =>
      refine ⟨p, q, body, rest, { m with frame.vectors := ⟨vs⟩ }, ?_, exec, fun others code => ?_⟩
      · exact List.head?_eq_some_iff.mpr ⟨q :: vs, vectors⟩
      · exact on_bodyOperands_zip (m := m.withStacks (others.push body) code) vectors rfl

theorem higherOrder_eq : higherOrder runBody paired = (do
    let m ← get
    if m.settings.maxNestingDepth ≤ m.nesting then stop
    else do
      let (firsts, seconds, body) ← bodyOperands paired
      modify (mapComponents runBody firsts seconds body)) := by
  cases paired <;> simp [higherOrder, bodyOperands]

theorem on_higherOrder (shallow : m.nesting < m.settings.maxNestingDepth)
    (taken : (bodyOperands paired).on m = (some (firsts, seconds, body), caller)) :
    (higherOrder runBody paired).on m =
      (some (), mapComponents runBody firsts seconds body caller) := by
  rw [higherOrder_eq, on_bind, on_get]
  simp only [Nat.not_le.mpr shallow, if_false, on_bind, taken, on_modify]

theorem perform_overComponents (view : SwarmView)
    (present : m.frame.satisfies (Instruction.overComponents paired).operands)
    (shallow : m.nesting < m.settings.maxNestingDepth)
    (taken : (bodyOperands paired).on m = (some (firsts, seconds, body), caller)) :
    m.perform view (.overComponents paired) =
      mapComponents (Machine.runBody view m.levels) firsts seconds body caller := by
  have same : act view (Machine.runBody view m.levels) (.overComponents paired) =
      higherOrder (Machine.runBody view m.levels) paired := by cases paired <;> rfl
  rw [perform, performWith_of_satisfies present, same, on_higherOrder shallow taken]

theorem length_eachComponent (run : Machine → Machine) (firsts seconds : Point) (m : Machine) :
    (eachComponent run firsts seconds m).1.length = firsts.length := by
  induction firsts generalizing seconds m with
  | nil => rfl
  | cons x firsts ih => exact congrArg (· + 1) (ih _ _)

theorem top?_mapComponents : ∃ result,
    (mapComponents runBody firsts seconds body caller).frame.vectors.top? = some result ∧
      result.length = firsts.length := ⟨_, rfl, length_eachComponent ..⟩

@[simp] theorem exec_mapComponents :
    (mapComponents runBody firsts seconds body caller).frame.exec = caller.frame.exec := rfl

@[simp] theorem code_mapComponents :
    (mapComponents runBody firsts seconds body caller).frame.code = caller.frame.code := rfl

/-- Bodies begin without code, so whatever the caller's stacks hold only comes back. -/
theorem mapComponents_withStacks (exec code : Stack Code) :
    mapComponents runBody firsts seconds body (caller.withStacks exec code) =
      (mapComponents runBody firsts seconds body caller).withStacks exec code := rfl

theorem satisfies_withStacks (body : Code) (others code : Stack Code)
    (present : m.frame.satisfies (Instruction.overComponents paired).operands) :
    (m.withStacks (others.push body) code).frame.satisfies
      (Instruction.overComponents paired).operands := by
  have sizes := Frame.satisfies_iff.mp present
  refine Frame.satisfies_iff.mpr fun k => ?_
  cases k with
  | integer | float | boolean | vector => exact sizes _
  | code => cases paired <;> exact Nat.zero_le _
  | exec =>
    have positive : 1 ≤ (others.push body).size := Nat.succ_pos _
    cases paired <;> exact positive

/-- Running code for components isolates the caller. Its stacks of code come back, but for the body,
and its surroundings stay; the result is as long as the vector it is made from; and all but the
stacks of code comes out the same whatever other code the caller holds. -/
theorem perform_isolates (view : SwarmView) (m : Machine) (paired : Bool)
    (present : m.frame.satisfies (Instruction.overComponents paired).operands)
    (shallow : m.nesting < m.settings.maxNestingDepth) :
    ∃ firsts body rest,
      m.frame.vectors.top? = some firsts ∧ m.frame.exec.items = body :: rest ∧
      (m.perform view (.overComponents paired)).frame.exec.items = rest ∧
      (m.perform view (.overComponents paired)).frame.code = m.frame.code ∧
      (m.perform view (.overComponents paired)).surroundings = m.surroundings ∧
      (∃ result, (m.perform view (.overComponents paired)).frame.vectors.top? = some result ∧
        result.length = firsts.length) ∧
      ∀ others code : Stack Code,
        (m.withStacks (others.push body) code).perform view (.overComponents paired) =
          (m.perform view (.overComponents paired)).withStacks others code := by
  obtain ⟨firsts, seconds, body, rest, caller, top, exec, taken⟩ := bodyOperands_present present
  -- The machine as it is, said in the form in which its stacks of code can be exchanged.
  have whole : m.withStacks (Stack.push ⟨rest⟩ body) m.frame.code = m := by
    rw [Stack.push, ← exec]
    rfl
  have own := taken ⟨rest⟩ m.frame.code
  rw [whole] at own
  have performed := perform_overComponents view present shallow own
  refine ⟨firsts, body, rest, top, exec, ?_, ?_, ?_, ?_, fun others code => ?_⟩
  · rw [performed, exec_mapComponents]
    rfl
  · rw [performed, code_mapComponents]
    rfl
  · exact surroundings_performWith (surroundings_runBody view _) view m _
  · rw [performed]
    exact top?_mapComponents
  · have present := satisfies_withStacks body others code present
    calc (m.withStacks (others.push body) code).perform view (.overComponents paired)
        = mapComponents (Machine.runBody view m.levels) firsts seconds body
            (caller.withStacks others code) :=
          perform_overComponents view present shallow (taken others code)
      _ = (m.perform view (.overComponents paired)).withStacks others code := by
          rw [performed, mapComponents_withStacks, mapComponents_withStacks]
          rfl

/-- A machine about to add up two vectors with a body that throws all code away first. -/
def flushing : Machine :=
  { Machine.ofSeed {} 0 with
    frame :=
      { vectors := ⟨[[1, 2], [3, 4]]⟩
        code := ⟨[.atom (.integer 7)]⟩
        exec := ⟨[.list [.instruction (.stack .exec .flush)], .atom (.integer 5)]⟩ } }

theorem flushing_isolated :
    ∃ firsts body rest,
      flushing.frame.vectors.top? = some firsts ∧ flushing.frame.exec.items = body :: rest ∧
      (flushing.perform .empty (.overComponents true)).frame.exec.items = rest ∧
      (flushing.perform .empty (.overComponents true)).frame.code = flushing.frame.code ∧
      (flushing.perform .empty (.overComponents true)).surroundings = flushing.surroundings ∧
      (∃ result,
        (flushing.perform .empty (.overComponents true)).frame.vectors.top? = some result ∧
        result.length = firsts.length) ∧
      ∀ others code : Stack Code,
        (flushing.withStacks (others.push body) code).perform .empty (.overComponents true) =
          (flushing.perform .empty (.overComponents true)).withStacks others code :=
  perform_isolates .empty flushing true (by decide) (by decide)

end Machine
end SwarmEvolution
