import Mathlib.Logic.Function.Iterate
import SwarmEvolution.Proofs.Machine.Loops
import SwarmEvolution.Proofs.Machine.Termination

/-! Counted loops. A body is known by its effect on all that is not code still to run. A loop over a
range of integers unfolds into code that does the same for the rest of the range, so it has the
effect of one round for each index in order, and then the code after it is reached. -/
namespace SwarmEvolution

/-- What code works on: the stacks but that of the code still to run, and the stream. -/
structure Store where
  integers : Stack Int32
  floats : Stack Float32
  booleans : Stack Bool
  vectors : Stack Point
  code : Stack Code
  random : Sampling.Stream

namespace Store

def pushInteger (s : Store) (n : Int32) : Store := { s with integers := s.integers.push n }

/-- The store without the top integer. -/
def dropInteger (s : Store) : Store := { s with integers := s.integers.drop }

/-- One round for each index: it is pushed, and then the body has its effect. -/
def rounds (body : Store → Store) (indices : List Int) (s : Store) : Store :=
  indices.foldl (fun s i => body (s.pushInteger (.ofInt i))) s

end Store

/-- The whole numbers from one to another, upwards or downwards, both ends included. -/
def indices (first last : Int) : List Int :=
  (List.range ((last - first).natAbs + 1)).map fun (k : Nat) =>
    if first ≤ last then first + k else first - k

theorem length_indices (first last : Int) :
    (indices first last).length = (last - first).natAbs + 1 := by
  rw [indices, List.length_map, List.length_range]

theorem indices_self (i : Int) : indices i i = [i] := by simp [indices]

/-- Each number on the way but the last is followed by the next one in the direction of the last. -/
theorem indices_of_ne {first last : Int} (further : first ≠ last) :
    indices first last =
      first :: indices (if first < last then first + 1 else first - 1) last := by
  have fewer : (last - first).natAbs =
      (last - if first < last then first + 1 else first - 1).natAbs + 1 := by
    split <;> omega
  rw [indices, List.range_succ_eq_map, List.map_cons, List.map_map, indices, ← fewer]
  congr 1
  · simp
  · refine List.map_congr_left fun k member => ?_
    have inside := List.mem_range.mp member
    simp only [Function.comp_apply]
    -- The rest goes in the same direction, unless it is only the last number, which has none.
    split <;> split <;> split <;> omega

theorem between_of_mem_indices {first last i : Int} (member : i ∈ indices first last) :
    min first last ≤ i ∧ i ≤ max first last := by
  obtain ⟨k, inside, rfl⟩ := List.mem_map.mp member
  have fewer := List.mem_range.mp inside
  split <;> omega

namespace Machine

/-- The machine with certain surroundings, code still to run and store. -/
def Surroundings.machine (around : Surroundings) (exec : Stack Code) (s : Store) : Machine where
  settings := around.settings
  frame := { integers := s.integers, floats := s.floats, booleans := s.booleans
             vectors := s.vectors, code := s.code, exec := exec }
  input := around.input
  random := s.random
  limits := around.limits
  nesting := around.nesting
  current := around.current

variable (view : SwarmView)

/-- Some number of steps leads from one machine to another. -/
def Reaches (m n : Machine) : Prop := ∃ steps, (m.run view steps).1 = n

/-- What a piece of code does in certain surroundings to every store, whatever is to run after
it. -/
def HasEffect (around : Surroundings) (body : Code) (effect : Store → Store) : Prop :=
  ∀ exec s, Reaches view (around.machine (exec.push body) s) (around.machine exec (effect s))

variable {view} {m n l : Machine} {c body : Code}

theorem Reaches.refl (m : Machine) : Reaches view m m := ⟨0, rfl⟩

theorem Reaches.trans (first : Reaches view m n) (second : Reaches view n l) :
    Reaches view m l := by
  obtain ⟨steps, rfl⟩ := first
  obtain ⟨more, rfl⟩ := second
  exact ⟨steps + more, by rw [run_add]⟩

theorem Reaches.step (popped : m.pop? .exec = some (c, n)) (rest : Reaches view (n.step view c) l) :
    Reaches view m l := by
  obtain ⟨steps, rfl⟩ := rest
  exact ⟨steps + 1, by rw [run_of_popped popped]⟩

/-- The index after another one on the way to the last. -/
def next (index last : Int32) : Int32 := if index < last then index + 1 else index - 1

/-- No index is next to the end of the range of integers, unless it is the last. -/
theorem toInt_next {index last : Int32} (further : index ≠ last) :
    (next index last).toInt =
      if index.toInt < last.toInt then index.toInt + 1 else index.toInt - 1 := by
  have apart : index.toInt ≠ last.toInt := fun same => further (Int32.toInt_inj.mp same)
  have low := Int32.le_toInt last
  have high := Int32.toInt_lt last
  have low' := Int32.le_toInt index
  have high' := Int32.toInt_lt index
  unfold next
  simp only [Int32.lt_iff_toInt_lt]
  split
  · rw [Int32.toInt_add]
    exact Int.bmod_eq_of_le (by simp; omega) (by simp; omega)
  · rw [Int32.toInt_sub]
    exact Int.bmod_eq_of_le (by simp; omega) (by simp; omega)

section Range

variable {around : Surroundings} {exec : Stack Code} {s : Store}

theorem perform_range {index last : Int32} (further : index ≠ last) :
    (around.machine (exec.push body) ((s.pushInteger index).pushInteger last)).perform view
        (.exec .range) =
      around.machine ((exec.push (rangeLoop (next index last) last body)).push body)
        (s.pushInteger index) := by
  refine (performWith_of_satisfies (by rfl)).trans ?_
  rw [act, on_range rfl rfl further]
  rfl

theorem perform_range_last (last : Int32) :
    (around.machine (exec.push body) ((s.pushInteger last).pushInteger last)).perform view
        (.exec .range) =
      around.machine (exec.push body) (s.pushInteger last) := by
  refine (performWith_of_satisfies (by rfl)).trans ?_
  rw [act, on_range_last rfl rfl]
  rfl

/-- A loop comes to its own instruction with its bounds on the integers. -/
theorem reaches_range (first last : Int32) :
    Reaches view (around.machine (exec.push (rangeLoop first last body)) s)
      ((around.machine (exec.push body) ((s.pushInteger first).pushInteger last)).perform view
        (.exec .range)) :=
  .step rfl <| .step rfl <| .step rfl <| .step rfl <| .refl _

end Range

variable {around : Surroundings} {effect : Store → Store}

/-- A loop has the effect of its rounds, by induction on how many indices are still to come. -/
theorem range_reaches (performs : HasEffect view around body effect) (exec : Stack Code) (s : Store)
    (first last : Int32) :
    Reaches view
      ((around.machine (exec.push body) ((s.pushInteger first).pushInteger last)).perform view
        (.exec .range))
      (around.machine exec (s.rounds effect (indices first.toInt last.toInt))) := by
  induction distance : (last.toInt - first.toInt).natAbs generalizing first s with
  | zero =>
    obtain rfl : first = last := Int32.toInt_inj.mp (by omega)
    rw [perform_range_last, indices_self, Store.rounds, List.foldl_cons, List.foldl_nil,
      Int32.ofInt_toInt]
    exact performs exec _
  | succ left ih =>
    have further : first ≠ last := by
      rintro rfl
      omega
    have apart : first.toInt ≠ last.toInt := fun same => further (Int32.toInt_inj.mp same)
    have fewer : (last.toInt - (next first last).toInt).natAbs = left := by
      rw [toInt_next further]
      split <;> omega
    rw [perform_range further, indices_of_ne apart, ← toInt_next further, Store.rounds,
      List.foldl_cons, Int32.ofInt_toInt]
    exact (performs _ _).trans ((reaches_range _ last).trans (ih _ _ fewer))

theorem perform_count {n : Int32} (positive : 0 < n) (exec : Stack Code) (s : Store) :
    (around.machine (exec.push body) (s.pushInteger n)).perform view (.exec .count) =
      around.machine (exec.push (rangeLoop 0 (n - 1) body)) s := by
  refine (performWith_of_satisfies (by rfl)).trans ?_
  rw [act, execOp, on_countedLoop rfl rfl positive]
  rfl

theorem perform_times {n : Int32} (positive : 0 < n) (exec : Stack Code) (s : Store) :
    (around.machine (exec.push body) (s.pushInteger n)).perform view (.exec .times) =
      around.machine (exec.push
        (rangeLoop 0 (n - 1) (.list [.instruction (.stack .integer .pop), body]))) s := by
  refine (performWith_of_satisfies (by rfl)).trans ?_
  rw [act, execOp, on_countedLoop rfl rfl positive]
  rfl

theorem perform_pop (exec : Stack Code) (s : Store) :
    (around.machine exec s).perform view (.stack .integer .pop) =
      around.machine exec s.dropInteger := by
  obtain ⟨⟨_ | ⟨n, ns⟩⟩, floats, booleans, vectors, code, random⟩ := s <;> rfl

/-- The body of a loop that only counts takes its index away first. -/
theorem HasEffect.withoutIndex (performs : HasEffect view around body effect) :
    HasEffect view around (.list [.instruction (.stack .integer .pop), body])
      fun s => effect s.dropInteger := by
  intro exec s
  have rest : Reaches view
      ((around.machine (exec.push body) s).perform view (.stack .integer .pop))
      (around.machine exec (effect s.dropInteger)) := by
    rw [perform_pop]
    exact performs exec s.dropInteger
  exact .step rfl (.step rfl rest)

theorem rounds_withoutIndex (indices : List Int) (s : Store) :
    s.rounds (fun s => effect s.dropInteger) indices = effect^[indices.length] s := by
  induction indices generalizing s with
  | nil => rfl
  | cons i indices ih => exact ih _

theorem toInt_pred {n : Int32} (positive : 0 < n) : (n - 1).toInt = n.toInt - 1 := by
  have above : 0 < n.toInt := Int32.lt_iff_toInt_lt.mp positive
  have high := Int32.toInt_lt n
  rw [Int32.toInt_sub]
  exact Int.bmod_eq_of_le (by simp; omega) (by simp; omega)

theorem toInt_ofInt_of_mem_indices {first last : Int32} {i : Int}
    (member : i ∈ indices first.toInt last.toInt) : (Int32.ofInt i).toInt = i := by
  have between := between_of_mem_indices member
  have low := Int32.le_toInt first
  have high := Int32.toInt_lt first
  have low' := Int32.le_toInt last
  have high' := Int32.toInt_lt last
  exact Int32.toInt_ofInt_of_le (by omega) (by omega)

/-- A loop runs its body once for each index, with the index on the integers, and goes on with the
code after it. Over a range the indices are the numbers from the first to the last in order,
upwards or downwards, and none of them is beyond the integers, nor is a next one that is computed.
Counting begins at zero; without an index the body is run that often. -/
theorem loops_run_each_round (performs : HasEffect view around body effect) (exec : Stack Code)
    (s : Store) :
    (∀ first last : Int32,
      Reaches view
        ((around.machine (exec.push body) ((s.pushInteger first).pushInteger last)).perform view
          (.exec .range))
        (around.machine exec (s.rounds effect (indices first.toInt last.toInt))) ∧
      (indices first.toInt last.toInt).length = (last.toInt - first.toInt).natAbs + 1 ∧
      (∀ i ∈ indices first.toInt last.toInt, (Int32.ofInt i).toInt = i) ∧
      ∀ index, index ≠ last → (next index last).toInt =
        if index.toInt < last.toInt then index.toInt + 1 else index.toInt - 1) ∧
    ∀ n : Int32, 0 < n →
      (n - 1).toInt = n.toInt - 1 ∧
      Reaches view
        ((around.machine (exec.push body) (s.pushInteger n)).perform view (.exec .count))
        (around.machine exec (s.rounds effect (indices 0 (n.toInt - 1)))) ∧
      Reaches view
        ((around.machine (exec.push body) (s.pushInteger n)).perform view (.exec .times))
        (around.machine exec (effect^[n.toInt.toNat] s)) := by
  refine ⟨fun first last => ⟨range_reaches performs exec s first last, length_indices ..,
    fun i => toInt_ofInt_of_mem_indices, fun index => toInt_next⟩, fun n positive => ?_⟩
  have last := toInt_pred positive
  have length : (indices 0 (n.toInt - 1)).length = n.toInt.toNat := by
    have above : 0 < n.toInt := Int32.lt_iff_toInt_lt.mp positive
    rw [length_indices]
    omega
  have count := (reaches_range 0 (n - 1)).trans (range_reaches performs exec s 0 (n - 1))
  have times :=
    (reaches_range 0 (n - 1)).trans (range_reaches performs.withoutIndex exec s 0 (n - 1))
  rw [Int32.toInt_zero, last] at count times
  rw [rounds_withoutIndex, length] at times
  rw [perform_count positive, perform_times positive]
  exact ⟨last, count, times⟩

/-- Adds one to the top integer. -/
def incrementing : Code := .list [.atom (.integer 1), .instruction (.integer .add)]

/-- Without an integer to add it to, the one stays. -/
def increment (s : Store) : Store :=
  match s.integers.items with
  | [] => s.pushInteger 1
  | n :: ns => { s with integers := ⟨(n + 1) :: ns⟩ }

theorem incrementing_hasEffect (around : Surroundings) :
    HasEffect .empty around incrementing increment := by
  rintro exec ⟨⟨_ | ⟨n, ns⟩⟩, floats, booleans, vectors, code, random⟩
  · exact .step rfl (.step rfl (.step rfl (.refl _)))
  · exact .step rfl (.step rfl (.step rfl (.refl _)))

/-- A store with only a zero. -/
def onlyZero : Store :=
  { integers := ⟨[0]⟩, floats := .empty, booleans := .empty, vectors := .empty, code := .empty
    random := .ofSeed 0 }

/-- Down to the lowest integer there are two rounds, up to one as well, and four turns without an
index make four of the zero. -/
theorem incrementing_loops :
    let around := (Machine.ofSeed {} 0).surroundings
    let exec : Stack Code := ⟨[.atom (.boolean true)]⟩
    HasEffect .empty around incrementing increment ∧ (0 : Int32) < 2 ∧ (0 : Int32) < 4 ∧
    Reaches .empty
      ((around.machine (exec.push incrementing)
        ((onlyZero.pushInteger (-2147483647)).pushInteger (-2147483648))).perform .empty
          (.exec .range))
      (around.machine exec { onlyZero with integers := ⟨[-2147483647, -2147483646, 0]⟩ }) ∧
    Reaches .empty
      ((around.machine (exec.push incrementing) (onlyZero.pushInteger 2)).perform .empty
        (.exec .count))
      (around.machine exec { onlyZero with integers := ⟨[2, 1, 0]⟩ }) ∧
    Reaches .empty
      ((around.machine (exec.push incrementing) (onlyZero.pushInteger 4)).perform .empty
        (.exec .times))
      (around.machine exec { onlyZero with integers := ⟨[4]⟩ }) := by
  intro around exec
  have performs := incrementing_hasEffect around
  obtain ⟨range, counted⟩ := loops_run_each_round performs exec onlyZero
  exact ⟨performs, by decide, by decide, (range _ _).1, (counted 2 (by decide)).2.1,
    (counted 4 (by decide)).2.2⟩

end Machine
end SwarmEvolution
