import SwarmEvolution.Proofs.Machine.Lawful

/-! The steps that a run takes, those of the bodies that it runs among them. What holds of machines
before every step and is kept by every step that is taken holds throughout.

That `Takes` lists the steps of a run is what the lemmas up to the section on laws are for, which
justify every statement that says something of all steps. `runWith_eq_after` says that a run comes
to the machine after one of its steps, and `Takes.after_eq_step` that what comes after a step is
what the machine makes of the code. For the steps in bodies, `runBody_eq_runWith` says that a body
is a run of its own, and `eachComponent_eq_bodyStarts` that the bodies of an instruction begin in
`bodyStarts`. -/
namespace SwarmEvolution.Machine

open Act

/-- A piece of code about to be worked on, with `depth` levels left below it. -/
structure Step where
  depth : Nat
  before : Machine
  code : Code

/-- The machine after a step, with all that the bodies of the step have done. -/
def Step.after (view : SwarmView) (s : Step) : Machine :=
  stepWith view (runBody view s.depth) s.before s.code

/-- The machines in which the bodies for the components of a vector begin. -/
def bodyStarts (run : Machine → Machine) : (firsts seconds : Point) → Machine → List Machine
  | [], _, _ => []
  | x :: firsts, seconds, m =>
    seconds.head?.elim (m.pushFloat x) (m.pushFloat x).pushFloat ::
      bodyStarts run firsts seconds.tail (onComponent run x seconds.head? m).2

/-- How many steps a body is given. A value is no program, so it does not even take its own. -/
def bodyLimit (settings : Settings.Machine) : Code → Nat
  | .list _ => settings.nestedExecutionLimit
  | .atom (.instruction _) => 1
  | .atom _ => 0

/-- A machine with `depth` levels left takes a step within so many steps of its own, either as one
of them or in a body that one of them runs. -/
inductive Takes (view : SwarmView) : (depth limit : Nat) → Machine → Step → Prop
  | first {depth limit m n c} (popped : m.pop? .exec = some (c, n)) :
    Takes view depth (limit + 1) m ⟨depth, n, c⟩
  | later {depth limit m n c s} (popped : m.pop? .exec = some (c, n))
    (rest : Takes view depth limit (stepWith view (runBody view depth) n c) s) :
    Takes view depth (limit + 1) m s
  | within {depth limit m n paired firsts seconds body caller start s}
    (popped : m.pop? .exec = some (.instruction (.overComponents paired), n))
    (present : n.frame.satisfies (Instruction.overComponents paired).operands)
    (shallow : n.nesting < n.settings.maxNestingDepth)
    (taken : (bodyOperands paired).on n = (some (firsts, seconds, body), caller))
    (starts : start ∈ bodyStarts (runBody view (depth + 1) · body) firsts seconds caller.inner)
    (inside : Takes view depth (bodyLimit n.settings body) (start.pushExec body) s) :
    Takes view (depth + 1) (limit + 1) m s

variable {view : SwarmView} {depth limit : Nat} {m : Machine} {s : Step}

/-- The components of the result are what the bodies leave on top of the floats. -/
theorem eachComponent_eq_bodyStarts (run : Machine → Machine) (firsts seconds : Point)
    (m : Machine) :
    (eachComponent run firsts seconds m).1 = (bodyStarts run firsts seconds m).map fun start =>
      ((run start).stack .float).top?.getD 0 := by
  induction firsts generalizing seconds m with
  | nil => rfl
  | cons x firsts ih =>
    simp only [eachComponent, bodyStarts, List.map_cons, ih, List.cons.injEq, and_true]
    simp only [onComponent, pop?, Stack.pop?, Stack.top?]
    split <;> simp [*]

/-- A body is a run of its own from the machine in which it begins. -/
theorem runBody_eq_runWith (body : Code) (program : body.isList ∨ ∃ i, body = .instruction i) :
    runBody view (depth + 1) m body =
      (runWith view (runBody view depth) (bodyLimit m.settings body) (m.pushExec body)).1 := by
  rcases program with list | ⟨i, rfl⟩
  · cases body with
    | list items => rfl
    | atom a => contradiction
  · rfl

/-- A run ends where it began or after one of its steps. -/
theorem runWith_eq_after (view : SwarmView) (depth limit : Nat) (m : Machine) :
    (runWith view (runBody view depth) limit m).1 = m ∨
      ∃ s, Takes view depth limit m s ∧
        s.after view = (runWith view (runBody view depth) limit m).1 := by
  induction limit generalizing m with
  | zero => exact .inl rfl
  | succ limit ih =>
    rw [runWith]
    cases popped : m.pop? .exec with
    | none => exact .inl rfl
    | some p =>
      right
      rcases ih (stepWith view (runBody view depth) p.2 p.1) with same | ⟨s, takes, after⟩
      · exact ⟨⟨depth, p.2, p.1⟩, .first popped, same.symm⟩
      · exact ⟨s, .later popped takes, after⟩

section Levels

theorem levels_congr {m n : Machine} (same : m.surroundings = n.surroundings) :
    m.levels = n.levels := by
  have settings : m.settings = n.settings := congrArg Surroundings.settings same
  have nesting : m.nesting = n.nesting := congrArg Surroundings.nesting same
  rw [levels, levels, settings, nesting]

theorem steady_bodyOperands (paired : Bool) : (bodyOperands paired).Steady := by
  cases paired with
  | false =>
    exact .bind steady_pop fun _ => .bind (steady_pure _) fun _ => .bind steady_pop fun _ =>
      steady_pure _
  | true =>
    exact .bind steady_pop fun _ => .bind steady_pop fun _ => .bind steady_pop fun _ =>
      steady_pure _

theorem surroundings_bodyStarts (body : Code) {firsts seconds : Point} {start : Machine}
    (starts : start ∈ bodyStarts (runBody view depth · body) firsts seconds m) :
    start.surroundings = m.surroundings := by
  induction firsts generalizing seconds m with
  | nil => simp [bodyStarts] at starts
  | cons x firsts ih =>
    rcases List.mem_cons.mp starts with rfl | later
    · cases seconds.head? <;> rfl
    · exact (ih later).trans (surroundings_onComponent (surroundings_runBody view depth) body x _ m)

/-- Steps begin with as many levels below them as their machine has left. -/
theorem Takes.depth_eq (takes : Takes view depth limit m s) (levels : depth = m.levels) :
    s.depth = s.before.levels := by
  induction takes with
  | first popped => exact levels.trans (levels_congr (surroundings_pop? popped)).symm
  | @later depth _ m n c s popped _ ih =>
    have stepped := surroundings_stepWith (surroundings_runBody view depth) view n c
    exact ih (levels.trans (levels_congr (stepped.trans (surroundings_pop? popped))).symm)
  | @within depth _ m n paired _ _ body caller start _ popped _ _ taken starts _ ih =>
    have before : n.levels = m.levels := levels_congr (surroundings_pop? popped)
    have operands : caller.levels = n.levels := by
      have steady := steady_bodyOperands paired n
      rw [taken] at steady
      exact levels_congr steady
    have began : start.levels = caller.inner.levels :=
      levels_congr (surroundings_bodyStarts body starts)
    have deeper : caller.inner.levels = caller.levels - 1 := Nat.sub_succ' ..
    refine ih ?_
    change depth = start.levels
    omega

/-- The steps that a run takes are steps of the machine. -/
theorem Takes.after_eq_step (takes : Takes view m.levels limit m s) :
    s.after view = s.before.step view s.code := by
  rw [Step.after, step, takes.depth_eq rfl]

end Levels

section Obeys

variable {law : Law} (closed : law.Closed view)
include closed

theorem bodyStarts_obey {runBody : Machine → Code → Machine} (tolerates : law.Tolerates runBody)
    {body : Code} (lawful : law.code body) {firsts seconds : Point}
    (left : ∀ x ∈ firsts, law.number x) (right : ∀ y ∈ seconds, law.number y)
    (obeys : m.Obeys law) {start : Machine}
    (starts : start ∈ bodyStarts (runBody · body) firsts seconds m) : start.Obeys law := by
  induction firsts generalizing seconds m with
  | nil => simp [bodyStarts] at starts
  | cons x firsts ih =>
    obtain ⟨number, others⟩ := List.forall_mem_cons.mp left
    have head : ∀ y, seconds.head? = some y → law.number y := fun y head =>
      right y (List.mem_of_head? head)
    rcases List.mem_cons.mp starts with rfl | later
    · exact obeys.component number head
    · have after := (onComponent_obeys closed tolerates lawful obeys number head).2
      exact ih others (fun y member => right y (List.mem_of_mem_tail member)) after later

/-- A law that every step keeps which is taken is kept before and after each of them. -/
theorem Takes.obeys (tolerates : ∀ depth, law.Tolerates (runBody view depth))
    (kept : ∀ s, Takes view depth limit m s → s.before.Obeys law → law.code s.code →
      (s.after view).Obeys law)
    (obeys : m.Obeys law) (takes : Takes view depth limit m s) :
    s.before.Obeys law ∧ law.code s.code ∧ (s.after view).Obeys law := by
  induction takes with
  | first popped =>
    obtain ⟨lawful, before⟩ := obeys.pop? popped
    exact ⟨before, lawful, kept _ (.first popped) before lawful⟩
  | later popped _ ih =>
    obtain ⟨lawful, before⟩ := obeys.pop? popped
    exact ih (fun s takes => kept s (.later popped takes)) (kept _ (.first popped) before lawful)
  | within popped present shallow taken starts _ ih =>
    have before := (obeys.pop? popped).2
    obtain ⟨caller, operands⟩ := bodyOperands_keeps _ _ before
    rw [taken] at caller operands
    obtain ⟨left, right, lawful⟩ := operands _ rfl
    -- The body is a run of its own that begins lawfully, so the induction hypothesis covers it.
    have start := bodyStarts_obey closed (tolerates _) lawful left.2 right caller.inner starts
    exact ih (fun s takes => kept s (.within popped present shallow taken starts takes))
      (start.push (k := .exec) lawful)

theorem Takes.obeys_unlimited (unlimited : law.Unlimited) (obeys : m.Obeys law)
    (takes : Takes view depth limit m s) : (s.after view).Obeys law := by
  have tolerates := fun depth => runBody_tolerated closed unlimited depth
  have kept : ∀ s, Takes view depth limit m s → s.before.Obeys law → law.code s.code →
      (s.after view).Obeys law := fun s _ before lawful =>
    stepWith_obeys closed (tolerates s.depth)
      (fun _ _ _ => lawful_loop closed unlimited before) lawful before
  exact (takes.obeys closed tolerates kept obeys).2.2

end Obeys

end SwarmEvolution.Machine
