import SwarmEvolution.Proofs.Machine.Operands

/-! Packing the topmost floats into a vector and taking the top vector apart. Each of the two finds
on its own stack what the other has put there, in the same order, so one after the other they
restore the machine, whichever comes first. -/
namespace SwarmEvolution.Machine

open Act

variable {m : Machine} {p : Point}

/-- The machine with other floats and vectors, top first. -/
def withNumbers (m : Machine) (floats : List Float32) (vectors : List Point) : Machine :=
  { m with frame.floats := ⟨floats⟩, frame.vectors := ⟨vectors⟩ }

/-- Elements come off topmost first, whatever lies below them. -/
theorem on_popMany {k : StackKind} {as rest : List k.Element}
    (shape : (m.stack k).items = as ++ rest) :
    (popMany k as.length).on m = (some as, m.setStack k ⟨rest⟩) := by
  induction as generalizing m with
  | nil =>
    have same : m.stack k = ⟨rest⟩ := Stack.ext shape
    rw [← same, setStack, stack, Frame.setStack_stack]
    rfl
  | cons a as ih =>
    have others := ih (items_below shape)
    have left : (m.below k).setStack k ⟨rest⟩ = m.setStack k ⟨rest⟩ := by
      simp only [below, setStack, Frame.setStack_setStack]
    rw [List.length_cons, popMany, on_bind, on_pop_of_items shape]
    dsimp only
    rw [on_bind, others, left]
    rfl

theorem perform_fromFloats (view : SwarmView) (xs : List Float32) (vs : List Point)
    (length : p.length = m.dimensions) :
    (m.withNumbers (p.reverse ++ xs) vs).perform view (.vector .fromFloats) =
      m.withNumbers xs (p :: vs) := by
  let n := m.withNumbers (p.reverse ++ xs) vs
  have enough : (n.stack .float).has n.dimensions := by
    rw [Stack.has_iff]
    change m.dimensions ≤ (p.reverse ++ xs).length
    rw [List.length_append, List.length_reverse, length]
    exact Nat.le_add_right ..
  have taken : (popMany .float n.dimensions).on n = (some p.reverse, n.setStack .float ⟨xs⟩) := by
    have count : n.dimensions = p.reverse.length := by
      rw [List.length_reverse, length]
      rfl
    rw [count]
    exact on_popMany rfl
  refine (performWith_of_satisfies (by rfl)).trans ?_
  change (vectorFromFloats.on n).2 = _
  rw [vectorFromFloats, on_bind, on_get]
  dsimp only
  rw [if_pos enough, on_bind, taken]
  dsimp only
  rw [on_put, List.reverse_reverse]
  rfl

theorem perform_toFloats (view : SwarmView) (m : Machine) (p : Point) (xs : List Float32)
    (vs : List Point) :
    (m.withNumbers xs (p :: vs)).perform view (.vector .toFloats) =
      m.withNumbers (p.reverse ++ xs) vs := by
  have pushed : (⟨xs⟩ : Stack Float32).pushAll p = ⟨p.reverse ++ xs⟩ :=
    Stack.ext (Stack.items_pushAll _ _)
  refine (performWith_of_satisfies (by rfl)).trans ?_
  change m.withNumbers ((⟨xs⟩ : Stack Float32).pushAll p).items vs = _
  rw [pushed]

/-- With a float for each dimension, the topmost become a vector in the order in which they were
pushed, and are floats again when it is taken apart. A top vector of that length becomes the
topmost floats, and is put together again from them. All else stays as it is, on the two stacks
and elsewhere. -/
theorem packing_restores (view : SwarmView) (m : Machine) :
    (m.dimensions ≤ m.size .float →
      m.perform view (.vector .fromFloats) =
          m.withNumbers ((m.stack .float).items.drop m.dimensions)
            (((m.stack .float).items.take m.dimensions).reverse :: (m.stack .vector).items) ∧
        (m.perform view (.vector .fromFloats)).perform view (.vector .toFloats) = m) ∧
    ∀ p rest, (m.stack .vector).items = p :: rest → p.length = m.dimensions →
      m.perform view (.vector .toFloats) =
          m.withNumbers (p.reverse ++ (m.stack .float).items) rest ∧
        (m.perform view (.vector .toFloats)).perform view (.vector .fromFloats) = m := by
  refine ⟨fun enough => ?_, fun p rest shape length => ?_⟩
  · let p : Point := ((m.stack .float).items.take m.dimensions).reverse
    have length : p.length = m.dimensions := by
      rw [List.length_reverse, List.length_take]
      exact Nat.min_eq_left enough
    have whole : m.withNumbers (p.reverse ++ (m.stack .float).items.drop m.dimensions)
        (m.stack .vector).items = m := by
      rw [List.reverse_reverse, List.take_append_drop]
      rfl
    have packed := perform_fromFloats view ((m.stack .float).items.drop m.dimensions)
      (m.stack .vector).items length
    rw [whole] at packed
    refine ⟨packed, ?_⟩
    rw [packed, perform_toFloats, whole]
  · have whole : m.withNumbers (m.stack .float).items (p :: rest) = m := by
      rw [← shape]
      rfl
    have unpacked := perform_toFloats view m p (m.stack .float).items rest
    rw [whole] at unpacked
    refine ⟨unpacked, ?_⟩
    rw [unpacked, perform_fromFloats view _ _ length, whole]

/-- A machine for vectors of two components, with four floats and one vector. -/
def laden : Machine :=
  (Machine.ofSeed { vectorDimensions := 2 } 0).withNumbers [-2, 1.5, 8, 7] [[3, 4]]

theorem laden_restored :
    laden.dimensions ≤ laden.size .float ∧
    laden.perform .empty (.vector .fromFloats) = laden.withNumbers [8, 7] [[1.5, -2], [3, 4]] ∧
    (laden.perform .empty (.vector .fromFloats)).perform .empty (.vector .toFloats) = laden ∧
    (laden.stack .vector).items = [[3, 4]] ∧ ([3, 4] : Point).length = laden.dimensions ∧
    laden.perform .empty (.vector .toFloats) = laden.withNumbers [4, 3, -2, 1.5, 8, 7] [] ∧
    (laden.perform .empty (.vector .toFloats)).perform .empty (.vector .fromFloats) = laden := by
  have enough : laden.dimensions ≤ laden.size .float := by decide
  obtain ⟨packs, unpacks⟩ := packing_restores .empty laden
  obtain ⟨packed, restored⟩ := packs enough
  obtain ⟨unpacked, restored'⟩ := unpacks [3, 4] [] rfl rfl
  exact ⟨enough, packed, restored, rfl, rfl, unpacked, restored'⟩

end SwarmEvolution.Machine
